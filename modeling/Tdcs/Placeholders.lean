import Tdcs.Lib.YamlScalars
import Tdcs.Dsn
import Tdcs.ConfigAgreement

/-!
Placeholders are replaced in the text of a file, before YAML reads it.

A file is a layout: its placeholders stand in scalars, and what stands around these is left
alone. Replacing in the text and replacing in the strings of the document come to the same
exactly if every scalar, with the values put in, still stands for its own text.
-/

namespace Tdcs.Placeholders

open Tdcs.Lib.YamlScalars Tdcs.ConfigManager Tdcs.Dsn

/-! ### Replacing in the text -/

variable (O : Outside)

/-- A character that no placeholder contains. -/
structure Neutral (c : Char) : Prop where
  word : O.isWord c = false
  dollar : c ≠ '$'
  opening : c ≠ '{'
  closing : c ≠ '}'

variable {O}

lemma placeholder_of_ne {c : Char} (cs : Text) (h : c ≠ '$') : placeholder O (c :: cs) = none := by
  unfold placeholder
  split
  · next heq => exact absurd (List.cons.inj heq).1 h
  · rfl

lemma drop_takeWhile (f : Char → Bool) (l : Text) :
    l.drop (l.takeWhile f).length = l.dropWhile f := by
  have hsplit := List.takeWhile_append_dropWhile (p := f) (l := l)
  calc l.drop (l.takeWhile f).length
      = (l.takeWhile f ++ l.dropWhile f).drop (l.takeWhile f).length := by rw [hsplit]
    _ = l.dropWhile f := List.drop_left

lemma placeholder_cons_cons (rest : Text) : placeholder O ('$' :: '{' :: rest) =
    if rest.takeWhile O.isWord ≠ [] ∧ (rest.dropWhile O.isWord).head? = some '}' then
      some (rest.takeWhile O.isWord)
    else none := by
  rw [← drop_takeWhile]
  rfl

lemma placeholder_eq_some {cs var : Text} (h : placeholder O cs = some var) :
    ∃ rest, cs = '$' :: '{' :: (var ++ '}' :: rest) := by
  obtain ⟨rest, rfl⟩ : ∃ rest, cs = '$' :: '{' :: rest := by
    unfold placeholder at h
    split at h
    · exact ⟨_, rfl⟩
    · cases h
  rw [placeholder_cons_cons] at h
  split_ifs at h with hvar
  obtain rfl := Option.some.inj h
  obtain ⟨tail, htail⟩ := List.head?_eq_some_iff.1 hvar.2
  exact ⟨tail, by rw [← htail, List.takeWhile_append_dropWhile]⟩

lemma takeWhile_append_stop {f : Char → Bool} {n : Char} (hn : f n = false) (a b : Text) :
    (a ++ n :: b).takeWhile f = a.takeWhile f ∧
      (a ++ n :: b).dropWhile f = a.dropWhile f ++ n :: b := by
  induction a with
  | nil => simp [hn]
  | cons c a ih => by_cases hc : f c = true <;> simp [hc, ih]

lemma placeholder_append {n : Char} (hn : Neutral O n) (c : Char) (a b : Text) :
    placeholder O (c :: a ++ n :: b) = placeholder O (c :: a) := by
  by_cases hc : c = '$'
  · subst hc
    rcases a with _ | ⟨d, a⟩
    · simp [placeholder, hn.opening]
    · by_cases hd : d = '{'
      · subst hd
        obtain ⟨htake, hdrop⟩ := takeWhile_append_stop hn.word a b
        rw [List.cons_append, List.cons_append, placeholder_cons_cons, placeholder_cons_cons, htake,
          hdrop]
        rcases a.dropWhile O.isWord with _ | ⟨e, tail⟩
        · simp [hn.closing]
        · rfl
      · simp [placeholder, hd]
  · rw [List.cons_append, placeholder_of_ne _ hc, placeholder_of_ne _ hc]

/-- **A neutral character cuts the text** into two, which are replaced one by one. -/
theorem substitute_append {n : Char} (hn : Neutral O n) (k : ℕ) (a b : Text) (hk : k ≤ a.length) :
    substitute O k (a ++ n :: b) =
      (substitute O k a).bind fun a' => (substitute O 0 b).map fun b' => a' ++ n :: b' := by
  induction a generalizing k with
  | nil =>
    obtain rfl : k = 0 := Nat.le_zero.1 hk
    have hcut : substitute O 0 (n :: b) = (substitute O 0 b).map (n :: ·) := by
      rw [substitute, placeholder_of_ne b hn.dollar]
    rw [List.nil_append, hcut]
    rfl
  | cons c a ih =>
    cases k with
    | succ k => exact ih k (Nat.le_of_succ_le_succ hk)
    | zero =>
      have hlocal := placeholder_append hn c a b
      rw [List.cons_append] at hlocal ⊢
      rw [substitute, substitute, hlocal]
      rcases hvar : placeholder O (c :: a) with _ | var
      · dsimp only
        rw [ih 0 (Nat.zero_le _)]
        cases substitute O 0 a <;> cases substitute O 0 b <;> rfl
      · obtain ⟨rest, hrest⟩ := placeholder_eq_some hvar
        have hlen : var.length + 2 ≤ a.length := by
          have h := congrArg List.length hrest
          simp only [List.length_cons, List.length_append] at h
          omega
        dsimp only
        rw [ih _ hlen]
        cases envReplace O var <;> cases substitute O (var.length + 2) a <;>
          cases substitute O 0 b <;> simp

/-- The placeholder of a variable. -/
def placeholderText (var : Text) : Text := '$' :: '{' :: (var ++ ['}'])

lemma substitute_skip (a : Text) : substitute O a.length a = some [] := by
  induction a with
  | nil => rfl
  | cons c a ih => exact ih

/-- A variable that `_env_replace` looks up. -/
structure IsVar (O : Outside) (var : Text) : Prop where
  ne_nil : var ≠ []
  word : ∀ c ∈ var, O.isWord c = true
  brace : O.isWord '}' = false
  free : var ∉ builtinVars

lemma substitute_placeholder {var : Text} (h : IsVar O var) :
    substitute O 0 (placeholderText var) = O.environ var := by
  obtain ⟨htake, hdrop⟩ := takeWhile_append_stop h.brace var []
  rw [List.takeWhile_eq_self_iff.2 h.word] at htake
  rw [List.dropWhile_eq_nil_iff.2 h.word] at hdrop
  have hvar : placeholder O (placeholderText var) = some var := by
    rw [placeholderText, placeholder_cons_cons, htake, hdrop]
    simp [h.ne_nil]
  have hskip : substitute O (var.length + 2) ('{' :: (var ++ ['}'])) = some [] := by
    have hall := substitute_skip (O := O) ('{' :: (var ++ ['}']))
    rwa [List.length_cons, List.length_append, List.length_singleton] at hall
  rw [placeholderText] at hvar ⊢
  rw [substitute, hvar]
  dsimp only
  rw [hskip, envReplace, if_neg h.free]
  cases O.environ var <;> simp

/-! ### Replacing in the scalars of a layout -/

variable (O)

def substSlot (slot : Slot) : Option Slot :=
  (substitute O 0 slot.src).map fun src => ⟨slot.style, src, slot.after⟩

def substLayout (L : Layout) : Option Layout :=
  (mapAll (substSlot O) L.slots).map fun slots => ⟨L.head, slots⟩

/-- No placeholder stands around the scalars. -/
structure Framed (L : Layout) : Prop where
  neutral : ∀ s : Style, Neutral O s.opening ∧ Neutral O s.closing
  head : substitute O 0 L.head = some L.head
  after : ∀ slot ∈ L.slots, substitute O 0 slot.after = some slot.after

variable {O} {L L' : Layout}

lemma forall₂_of_mapAll {α β : Type*} {f : α → Option β} {l : List α} {r : List β}
    (h : mapAll f l = some r) : List.Forall₂ (fun a b => f a = some b) l r := by
  induction l generalizing r with
  | nil =>
    cases h
    exact .nil
  | cons a l ih =>
    obtain ⟨b, bs, hb, hbs, rfl⟩ := mapAll_cons_eq_some.1 h
    exact .cons hb (ih hbs)

lemma getElem?_of_forall₂ {α β : Type*} {R : α → β → Prop} {l : List α} {r : List β}
    (h : List.Forall₂ R l r) {k : ℕ} {a : α} (ha : l[k]? = some a) :
    ∃ b, r[k]? = some b ∧ R a b := by
  induction h generalizing k with
  | nil => cases ha
  | cons hab h ih =>
    cases k with
    | zero =>
      obtain rfl := Option.some.inj ha
      exact ⟨_, rfl, hab⟩
    | succ k => exact ih ha

lemma getElem?_substLayout (h : substLayout O L = some L') {i : ℕ} {slot : Slot}
    (hslot : L.slots[i]? = some slot) :
    ∃ slot', L'.slots[i]? = some slot' ∧ substSlot O slot = some slot' := by
  obtain ⟨slots, hslots, rfl⟩ := Option.map_eq_some_iff.1 h
  exact getElem?_of_forall₂ (forall₂_of_mapAll hslots) hslot

lemma frame_substLayout (h : substLayout O L = some L') : L'.frame = L.frame := by
  obtain ⟨slots, hslots, rfl⟩ := Option.map_eq_some_iff.1 h
  have hsame : ∀ {l r : List Slot}, List.Forall₂ (fun slot slot' => substSlot O slot = some slot')
      l r → r.map (fun slot => (slot.style, slot.after)) =
        l.map fun slot => (slot.style, slot.after) := by
    intro l r hlr
    induction hlr with
    | nil => rfl
    | cons hslot hlr ih =>
      obtain ⟨src, -, rfl⟩ := Option.map_eq_some_iff.1 hslot
      rw [List.map_cons, List.map_cons, ih]
  rw [Layout.frame, Layout.frame, hsame (forall₂_of_mapAll hslots)]

lemma length_substLayout (h : substLayout O L = some L') : L'.slots.length = L.slots.length := by
  have hframe := congrArg (fun f => f.2.length) (frame_substLayout h)
  simpa [Layout.frame] using hframe

lemma substitute_slots (hneutral : ∀ s : Style, Neutral O s.opening ∧ Neutral O s.closing)
    (slots : List Slot) (hafter : ∀ slot ∈ slots, substitute O 0 slot.after = some slot.after)
    (t : Text) (ht : substitute O 0 t = some t) :
    substitute O 0 (t ++ slots.flatMap Slot.text) =
      (mapAll (substSlot O) slots).map fun slots => t ++ slots.flatMap Slot.text := by
  induction slots generalizing t with
  | nil => simpa using ht
  | cons slot slots ih =>
    obtain ⟨hslot, hslots⟩ := List.forall_mem_cons.1 hafter
    obtain ⟨hopen, hclose⟩ := hneutral slot.style
    have htext : t ++ (slot :: slots).flatMap Slot.text = t ++ slot.style.opening ::
        (slot.src ++ slot.style.closing :: (slot.after ++ slots.flatMap Slot.text)) := by
      simp [Slot.text]
    rw [htext, substitute_append hopen 0 _ _ (Nat.zero_le _), ht,
      substitute_append hclose 0 _ _ (Nat.zero_le _), ih hslots slot.after hslot, mapAll, substSlot]
    cases substitute O 0 slot.src <;> cases mapAll (substSlot O) slots <;> simp [Slot.text]

/-- **The text of a layout** is replaced scalar by scalar. -/
theorem substitute_text (h : Framed O L) :
    substitute O 0 L.text = (substLayout O L).map Layout.text := by
  rw [Layout.text, substitute_slots h.neutral L.slots h.after L.head h.head, substLayout,
    Option.map_map]
  rfl

lemma readYaml_text (h : Framed O L) :
    readYaml O L.text = (substLayout O L).bind fun L' => O.safeLoad L'.text := by
  rw [readYaml, substitute_text h, Option.bind_map]
  rfl

/-! ### Replacing in the document -/

/-- A string scalar. -/
def strVal (t : Text) : Val := .str (String.ofList t)

lemma strVal_injective : Function.Injective strVal := fun _ _ h =>
  String.ofList_injective (Val.str.inj h)

variable (O) in
def substString (s : String) : Option String := (substitute O 0 s.toList).map String.ofList

mutual

/-- Placeholders replaced inside the string scalars of a document. -/
def substVal (O : Outside) : Val → Option Val
  | .str s => (substString O s).map .str
  | .list l => (substVals O l).map .list
  | .map m => (substEntries O m).map .map
  | v => some v

def substVals (O : Outside) : List Val → Option (List Val)
  | [] => some []
  | v :: l => (substVal O v).bind fun v' => (substVals O l).map fun l' => v' :: l'

def substEntries (O : Outside) : List (String × Val) → Option (List (String × Val))
  | [] => some []
  | (k, v) :: m => (substString O k).bind fun k' => (substVal O v).bind fun v' =>
    (substEntries O m).map fun m' => (k', v') :: m'

end

/-- What is read as strings from the scalars of a layout. -/
def texts (L : Layout) : List Val := L.slots.map fun slot => strVal slot.src

/-- The document of a layout of `n` scalars: it says what stands in each of them, and has no
placeholder of its own. -/
structure Document (O : Outside) (n : ℕ) (doc : List Val → Val) : Prop where
  injective : ∀ vals vals', vals.length = n → vals'.length = n → doc vals = doc vals' →
    vals = vals'
  subst : ∀ srcs : List Text, srcs.length = n → substVal O (doc (srcs.map strVal)) =
    (mapAll (substitute O 0) srcs).map fun srcs' => doc (srcs'.map strVal)

/-- A file, as YAML reads it with any values in its scalars. -/
structure YamlFile (O : Outside) (resolve : Text → Option Val) (L : Layout) (doc : List Val → Val) :
    Prop where
  framed : Framed O L
  strings : ∀ t u, resolve t = some (strVal u) → u = t
  loads : LoadsLayout strVal resolve O.safeLoad L.frame doc

variable (O) in
/-- **Replacing first and parsing first** give the same document. -/
def Structural (content : Text) : Prop :=
  readYaml O content = (O.safeLoad content).bind (substVal O)

variable (O) in
/-- **The password that `db_master_dsn` carries** is the one in the environment. -/
def PasswordExact (content var : Text) : Prop :=
  ∀ password, O.environ var = some password → ∀ dsn, masterDsn O content = some dsn →
    (credentials dsn.toList).map Prod.snd = some (some password)

/-- The scalar at `i` is the placeholder of the password, and the password of the node. -/
structure PasswordAt (O : Outside) (L : Layout) (doc : List Val → Val) (i : ℕ) (var : Text) :
    Prop where
  isVar : IsVar O var
  slot : ∃ slot, L.slots[i]? = some slot ∧ slot.src = placeholderText var
  node : ∀ vals m, vals.length = L.slots.length → masterNode (doc vals) = some m →
    m.lookup "password" = vals[i]?

variable (O) in
/-- Every scalar stands for its own text, in the file and with the values put in. -/
def Quiet (resolve : Text → Option Val) (L : Layout) : Prop :=
  (∀ slot ∈ L.slots, SelfReading strVal resolve slot) ∧
    ∀ L', substLayout O L = some L' → ∀ slot ∈ L'.slots, SelfReading strVal resolve slot

variable (O) in
/-- No value ends the scalar it is put into, and nothing but the values can make a difference. -/
def Contained (resolve : Text → Option Val) (L : Layout) : Prop :=
  (∀ slot ∈ L.slots, SelfReading strVal resolve slot) ∧
    ∀ L', substLayout O L = some L' → ∀ slot ∈ L'.slots,
      slot.style.within slot.src = true ∧ ∀ c ∈ slot.src, isSeparator c = false

section commutes

variable {resolve : Text → Option Val} {doc : List Val → Val} {var : Text} {i : ℕ}

lemma texts_substLayout (L : Layout) :
    (mapAll (substitute O 0) (L.slots.map Slot.src)).map (fun srcs => srcs.map strVal) =
      (substLayout O L).map texts := by
  have hslots : ∀ slots : List Slot,
      (mapAll (substitute O 0) (slots.map Slot.src)).map (fun srcs => srcs.map strVal) =
        (mapAll (substSlot O) slots).map fun slots => slots.map fun slot => strVal slot.src := by
    intro slots
    induction slots with
    | nil => rfl
    | cons slot slots ih =>
      rw [List.map_cons, mapAll, mapAll, substSlot]
      cases hsrc : substitute O 0 slot.src with
      | none => rfl
      | some src =>
        rcases hl : mapAll (substitute O 0) (slots.map Slot.src) with _ | srcs <;>
          rcases hr : mapAll (substSlot O) slots with _ | slots' <;>
          rw [hl, hr] at ih <;> simp_all
  rw [hslots, substLayout, Option.map_map]
  rfl

lemma parse_first (hfile : YamlFile O resolve L doc) (hdoc : Document O L.slots.length doc)
    (hown : ∀ slot ∈ L.slots, SelfReading strVal resolve slot) :
    (O.safeLoad L.text).bind (substVal O) = (substLayout O L).map fun L' => doc (texts L') := by
  have hload : O.safeLoad L.text = some (doc ((L.slots.map Slot.src).map strVal)) := by
    rw [load_of_selfReading hfile.loads hown, List.map_map]
    rfl
  have htexts := congrArg (Option.map doc) (texts_substLayout (O := O) L)
  rw [Option.map_map, Option.map_map] at htexts
  rw [hload, Option.bind_some, hdoc.subst _ (List.length_map ..)]
  exact htexts

lemma structural_of_quiet (hfile : YamlFile O resolve L doc) (hdoc : Document O L.slots.length doc)
    (h : Quiet O resolve L) : Structural O L.text := by
  rw [Structural, parse_first hfile hdoc h.1, readYaml_text hfile.framed]
  rcases hL : substLayout O L with _ | L'
  · rfl
  · have hloads := hfile.loads
    rw [← frame_substLayout hL] at hloads
    exact load_of_selfReading hloads (h.2 L' hL)

/-- **A layout whose scalars stay within their places** commutes only if it is quiet. -/
lemma quiet_of_structural (hfile : YamlFile O resolve L doc) (hdoc : Document O L.slots.length doc)
    (hin : Contained O resolve L) (h : Structural O L.text) : Quiet O resolve L := by
  refine ⟨hin.1, fun L' hL => ?_⟩
  rw [Structural, parse_first hfile hdoc hin.1, readYaml_text hfile.framed, hL] at h
  have hloads := hfile.loads
  rw [← frame_substLayout hL] at hloads
  have hinjective := hdoc.injective
  rw [← length_substLayout hL] at hinjective
  exact selfReading_of_load strVal_injective hfile.strings hinjective hloads (hin.2 L' hL) h

lemma passwordExact_of_quiet (hfile : YamlFile O resolve L doc) (hat : PasswordAt O L doc i var)
    (h : Quiet O resolve L) : PasswordExact O L.text var := by
  intro password hpassword dsn hmaster
  obtain ⟨raw, hraw, hnode⟩ := Option.bind_eq_some_iff.1 hmaster
  obtain ⟨m, hm, hdsn⟩ := Option.bind_eq_some_iff.1 hnode
  rw [readYaml_text hfile.framed] at hraw
  obtain ⟨L', hL, hload⟩ := Option.bind_eq_some_iff.1 hraw
  have hloads := hfile.loads
  rw [← frame_substLayout hL] at hloads
  rw [load_of_selfReading hloads (h.2 L' hL)] at hload
  obtain rfl := Option.some.inj hload
  obtain ⟨slot, hslot, hsrc⟩ := hat.slot
  obtain ⟨slot', hslot', hsubst⟩ := getElem?_substLayout hL hslot
  rw [substSlot, hsrc, substitute_placeholder hat.isVar, hpassword] at hsubst
  obtain rfl := Option.some.inj hsubst
  obtain ⟨user, p, -, hp, hcredentials⟩ := credentials_buildDsn hdsn
  have hlen : (L'.slots.map fun slot => strVal slot.src).length = L.slots.length := by
    rw [List.length_map, length_substLayout hL]
  rw [hat.node _ _ hlen hm, List.getElem?_map, hslot'] at hp
  obtain rfl : p = String.ofList password := (Val.str.inj (Option.some.inj hp)).symm
  rw [hcredentials, Option.map_some, String.toList_ofList]

/-- **When replacing placeholders does not change the structure.** If every scalar with a
placeholder stands for its own text, before and after the values are put in, the document is the
one that parsing first gives, and the URL carries the password of the environment. As long as no
value ends the scalar it is put into, this is the only case. -/
theorem structural_iff (hfile : YamlFile O resolve L doc) (hdoc : Document O L.slots.length doc)
    (hat : PasswordAt O L doc i var) :
    (Quiet O resolve L → Structural O L.text ∧ PasswordExact O L.text var) ∧
    (Contained O resolve L →
      (Structural O L.text ∧ PasswordExact O L.text var ↔ Quiet O resolve L)) := by
  have hquiet : Quiet O resolve L → Structural O L.text ∧ PasswordExact O L.text var := fun h =>
    ⟨structural_of_quiet hfile hdoc h, passwordExact_of_quiet hfile hat h⟩
  exact ⟨hquiet, fun hin => ⟨fun h => quiet_of_structural hfile hdoc hin h.1, hquiet⟩⟩

end commutes

/-! ### A file with two placeholders in double quotes -/

def head : Text := "database:\n  master:\n    user: ".toList
def behindUser : Text := "\n    password: ".toList
def behindPassword : Text := "\n    host: h\n    database: d\n".toList

def twoScalars (user password : Text) : Layout :=
  ⟨head, [⟨.double, user, behindUser⟩, ⟨.double, password, behindPassword⟩]⟩

def master (user password : Val) : List (String × Val) :=
  [("user", user), ("password", password), ("host", .str "h"), ("database", .str "d")]

def twoDoc (vals : List Val) : Val :=
  .map [("database", .map [("master", .map (master (vals.getD 0 .null) (vals.getD 1 .null)))])]

/-- YAML, on the texts whose two scalars stand for themselves; others it refuses. -/
def loadTwo (t : Text) : Option Val :=
  let user := (t.drop (head.length + 1)).takeWhile (· ≠ '"')
  let password :=
    (t.drop (head.length + 1 + user.length + 1 + behindUser.length + 1)).takeWhile (· ≠ '"')
  if t = (twoScalars user password).text ∧ user.all Style.double.ordinary ∧
      password.all Style.double.ordinary then
    some (twoDoc [strVal user, strVal password])
  else none

def userVar : Text := "DB_USER".toList
def passwordVar : Text := "DB_MASTER_PASSWORD".toList

/-- An environment with a user and a password. -/
def twoVars (user password : String) : Outside where
  pydantic := ConfigAgreement.lax
  py := ConfigAgreement.ascii
  host := ⟨"host", 1⟩
  safeLoad := loadTwo
  safeDump := fun _ => []
  environ := fun var =>
    if var = userVar then some user.toList
    else if var = passwordVar then some password.toList else none
  isWord := fun c => c.isAlphanum || c = '_'
  repr := fun _ => ""
  loadError := fun _ => .configValidation ""
  validateError := fun _ => .other "AttributeError" ""

def twoFile : Layout := twoScalars (placeholderText userVar) (placeholderText passwordVar)

lemma contained_unique {x y r r' : Text} (hx : contained .double false x = true)
    (hy : ∀ c ∈ y, Style.double.ordinary c = true) (h : x ++ '"' :: r = y ++ '"' :: r') :
    x = y := by
  induction y generalizing x with
  | nil =>
    cases x with
    | nil => rfl
    | cons c x =>
      obtain rfl : c = '"' := (List.cons.inj h).1
      simp [contained] at hx
  | cons d y ih =>
    obtain ⟨hd, hrest⟩ := List.forall_mem_cons.1 hy
    have hspecial : d ≠ '"' ∧ d ≠ '\\' := by
      simpa [Style.special] using (ordinary_iff.1 hd).2.1
    cases x with
    | nil => exact absurd (List.cons.inj h).1.symm hspecial.1
    | cons c x =>
      obtain ⟨rfl, htail⟩ := List.cons.inj h
      have hx' : contained .double false x = true := by
        simpa [contained, hspecial.1, hspecial.2] using hx
      rw [ih hx' hrest htail]

lemma text_twoScalars (x y : Text) : (twoScalars x y).text =
    head ++ '"' :: (x ++ '"' :: (behindUser ++ '"' :: (y ++ '"' :: behindPassword))) := by
  simp [twoScalars, Layout.text, Slot.text, Style.opening, Style.closing]

lemma quote_notMem {x : Text} (h : ∀ c ∈ x, Style.double.ordinary c = true) :
    ∀ c ∈ x, decide (c ≠ '"') = true := by
  intro c hc
  have hspecial : c ≠ '"' ∧ c ≠ '\\' := by
    simpa [Style.special] using (ordinary_iff.1 (h c hc)).2.1
  simpa using hspecial.1

lemma loadTwo_text {x y : Text} (hx : ∀ c ∈ x, Style.double.ordinary c = true)
    (hy : ∀ c ∈ y, Style.double.ordinary c = true) :
    loadTwo (twoScalars x y).text = some (twoDoc [strVal x, strVal y]) := by
  have htake : ∀ (z r : Text), (∀ c ∈ z, Style.double.ordinary c = true) →
      (z ++ '"' :: r).takeWhile (fun c => decide (c ≠ '"')) = z := by
    intro z r hz
    rw [List.takeWhile_append_of_pos (quote_notMem hz)]
    simp
  have hdrop : ∀ (a : Text) (c : Char) (r : Text) (n : ℕ),
      (a ++ c :: r).drop (a.length + 1 + n) = r.drop n := by
    intro a c r n
    rw [Nat.add_assoc, List.drop_length_add_append, Nat.add_comm, List.drop_succ_cons]
  have huser : ((twoScalars x y).text.drop (head.length + 1)).takeWhile
      (fun c => decide (c ≠ '"')) = x := by
    rw [text_twoScalars, ← Nat.add_zero (head.length + 1), hdrop]
    exact htake _ _ hx
  have hpassword : ((twoScalars x y).text.drop
      (head.length + 1 + x.length + 1 + behindUser.length + 1)).takeWhile
      (fun c => decide (c ≠ '"')) = y := by
    have hsum : head.length + 1 + x.length + 1 + behindUser.length + 1 =
        head.length + 1 + (x.length + 1 + (behindUser.length + 1 + 0)) := by omega
    rw [text_twoScalars, hsum, hdrop, hdrop, hdrop]
    exact htake _ _ hy
  unfold loadTwo
  dsimp only
  rw [huser, hpassword, if_pos ⟨rfl, List.all_eq_true.2 hx, List.all_eq_true.2 hy⟩]

lemma eq_twoScalars {L : Layout} (h : L.frame = twoFile.frame) : ∃ x y, L = twoScalars x y := by
  obtain ⟨hd, slots⟩ := L
  simp only [Layout.frame, twoFile, twoScalars, Prod.mk.injEq] at h
  obtain ⟨rfl, hslots⟩ := h
  rcases slots with _ | ⟨⟨s₁, x, a₁⟩, _ | ⟨⟨s₂, y, a₂⟩, _ | ⟨slot, slots⟩⟩⟩ <;> simp at hslots
  obtain ⟨⟨rfl, rfl⟩, rfl, rfl⟩ := hslots
  exact ⟨x, y, rfl⟩

lemma double_ne : Style.double ≠ .plain := by decide

lemma loadsLayout_two :
    LoadsLayout strVal (fun t => some (strVal t)) loadTwo twoFile.frame twoDoc where
  clean := by
    intro L hL hclean vals hvals
    obtain ⟨x, y, rfl⟩ := eq_twoScalars hL
    have hx := hclean ⟨.double, x, behindUser⟩ (by simp [twoScalars])
    have hy := hclean ⟨.double, y, behindPassword⟩ (by simp [twoScalars])
    have hx' := (clean_quoted double_ne).1 hx
    have hy' := (clean_quoted double_ne).1 hy
    obtain ⟨v, vals, hv, htail, rfl⟩ := List.forall₂_cons_left_iff.1 hvals
    obtain ⟨v', vals, hv', hnil, rfl⟩ := List.forall₂_cons_left_iff.1 htail
    obtain rfl := List.forall₂_nil_left_iff.1 hnil
    rw [SelfReading.eq ⟨hx, fun h => absurd h double_ne⟩ hv,
      SelfReading.eq ⟨hy, fun h => absurd h double_ne⟩ hv']
    exact loadTwo_text hx' hy'
  within := by
    intro L hL hwithin b hb
    obtain ⟨x, y, rfl⟩ := eq_twoScalars hL
    have hx : contained .double false x = true :=
      (hwithin ⟨.double, x, behindUser⟩ (by simp [twoScalars])).1
    have hy : contained .double false y = true :=
      (hwithin ⟨.double, y, behindPassword⟩ (by simp [twoScalars])).1
    unfold loadTwo at hb
    dsimp only at hb
    generalize List.takeWhile _ (List.drop (head.length + 1) _) = x' at hb
    generalize List.takeWhile _ _ = y' at hb
    split_ifs at hb with hread
    obtain ⟨htext, hx', hy'⟩ := hread
    rw [List.all_eq_true] at hx' hy'
    rw [text_twoScalars, text_twoScalars] at htext
    have htail := (List.cons.inj (List.append_cancel_left htext)).2
    obtain rfl := contained_unique hx hx' htail
    have htail' := (List.cons.inj (List.append_cancel_left
      (List.cons.inj (List.append_cancel_left htail)).2)).2
    obtain rfl := contained_unique hy hy' htail'
    exact ⟨_, .cons (.quoted double_ne (denotes_of_ordinary hx'))
      (.cons (.quoted double_ne (denotes_of_ordinary hy')) .nil), (Option.some.inj hb).symm⟩

section two

variable {user password : String}

lemma neutral_two (s : Style) : Neutral (twoVars user password) s.opening ∧
    Neutral (twoVars user password) s.closing := by
  cases s <;> exact ⟨⟨rfl, by decide, by decide, by decide⟩, ⟨rfl, by decide, by decide, by decide⟩⟩

lemma framed_two : Framed (twoVars user password) twoFile where
  neutral := neutral_two
  head := by rfl
  after := by
    intro slot hslot
    simp only [twoFile, twoScalars, List.mem_cons, List.not_mem_nil, or_false] at hslot
    rcases hslot with rfl | rfl
    · rfl
    · rfl

lemma yamlFile_two :
    YamlFile (twoVars user password) (fun t => some (strVal t)) twoFile twoDoc where
  framed := framed_two
  strings := fun _ _ h => (strVal_injective (Option.some.inj h)).symm
  loads := loadsLayout_two

lemma document_two : Document (twoVars user password) 2 twoDoc where
  injective := by
    intro vals vals' hlen hlen' h
    obtain ⟨u, p, rfl⟩ := List.length_eq_two.1 hlen
    obtain ⟨u', p', rfl⟩ := List.length_eq_two.1 hlen'
    simp [twoDoc, master] at h
    rw [h.1, h.2]
  subst := by
    intro srcs hlen
    obtain ⟨x, y, rfl⟩ := List.length_eq_two.1 hlen
    have hkeys : ∀ k ∈ ["database", "master", "user", "password", "host", "h", "d"],
        substString (twoVars user password) k = some k := by
      simp only [List.forall_mem_cons]
      refine ⟨rfl, rfl, rfl, rfl, rfl, rfl, rfl, nofun⟩
    simp only [List.forall_mem_cons] at hkeys
    obtain ⟨hdatabase, hmaster, huser, hpassword, hhost, hh, hd, -⟩ := hkeys
    have hstr : ∀ t, substVal (twoVars user password) (strVal t) =
        (substitute (twoVars user password) 0 t).map strVal := by
      intro t
      rw [strVal, substVal, substString, String.toList_ofList, Option.map_map]
      rfl
    simp only [twoDoc, master, List.map_cons, List.map_nil, List.getD_cons_zero,
      List.getD_cons_succ, substVal, substEntries, hdatabase, hmaster, huser, hpassword, hhost, hh,
      hd, hstr, mapAll]
    cases substitute (twoVars user password) 0 x <;>
      cases substitute (twoVars user password) 0 y <;> rfl

lemma isVar_two {var : Text} (h : var = userVar ∨ var = passwordVar) :
    IsVar (twoVars user password) var where
  ne_nil := by rcases h with rfl | rfl <;> decide
  word := by
    have hword : var.all (fun c => c.isAlphanum || c = '_') = true := by
      rcases h with rfl | rfl <;> decide
    exact List.all_eq_true.1 hword
  brace := rfl
  free := by rcases h with rfl | rfl <;> decide

lemma masterNode_twoDoc (u p : Val) : masterNode (twoDoc [u, p]) = some (master u p) := rfl

lemma passwordAt_two : PasswordAt (twoVars user password) twoFile twoDoc 1 passwordVar where
  isVar := isVar_two (.inr rfl)
  slot := ⟨_, rfl, rfl⟩
  node := by
    intro vals m hlen hm
    obtain ⟨u, p, rfl⟩ := List.length_eq_two.1 hlen
    obtain rfl := Option.some.inj hm
    rfl

end two

theorem structural_iff_twoFile :
    (Quiet (twoVars "etl" "pass") (fun t => some (strVal t)) twoFile →
      Structural (twoVars "etl" "pass") twoFile.text ∧
        PasswordExact (twoVars "etl" "pass") twoFile.text passwordVar) ∧
    (Contained (twoVars "etl" "pass") (fun t => some (strVal t)) twoFile →
      (Structural (twoVars "etl" "pass") twoFile.text ∧
          PasswordExact (twoVars "etl" "pass") twoFile.text passwordVar ↔
        Quiet (twoVars "etl" "pass") (fun t => some (strVal t)) twoFile)) :=
  structural_iff yamlFile_two document_two passwordAt_two

/-- A quote in the password ends the scalar that the placeholder stands in: the text is no YAML
any more, while the file is, and the password can be put into its strings. -/
theorem not_structural_quote : ¬ Structural (twoVars "etl" "pa\"ss") twoFile.text := by
  intro h
  have htext : (readYaml (twoVars "etl" "pa\"ss") twoFile.text).isSome = false := by decide +kernel
  have hparsed : (((twoVars "etl" "pa\"ss").safeLoad twoFile.text).bind
      (substVal (twoVars "etl" "pa\"ss"))).isSome = true := by decide +kernel
  rw [← h, htext] at hparsed
  cases hparsed

end Tdcs.Placeholders
