import Tdcs.CleanerRegistry
import Tdcs.Lib.PercentCoding
import Tdcs.Lib.Run
import Tdcs.Lib.WriteAt
import Tdcs.Users

/-!
`cleaners.py`: templates are created, updated and deleted by requests.

A request looks whether the file is there and goes to it later, while other requests do the same.
Opening a file for writing empties it, the text goes out in pieces, each at the place the request
has come to, and a file that is removed while it is open stays with those who have it open. The
registry of the templates follows behind.
-/

namespace Tdcs.TemplateApi

open Tdcs.Lib Tdcs.Lib.Run Tdcs.Lib.WriteAt Tdcs.CleanerTemplate
open Tdcs.Lib.PercentCoding (utf8)
open Tdcs.CleanerRegistry (Setting Templates Scanned)

variable {τ : Type*} (S : Setting τ)

/-! ### Names and paths -/

/-- `[a-zA-Z0-9_]`. -/
def isWord (c : Char) : Bool := c.isAlphanum || c == '_'

/-- `re.match(r'^[a-zA-Z_][a-zA-Z0-9_]*$', name)`; the end is also before a last line break. -/
def nameMatches (name : String) : Bool :=
  match name.toList with
  | [] => false
  | c :: rest =>
    (c.isAlpha || c == '_') &&
      (rest.all isWord || (rest.getLast? == some '\n' && rest.dropLast.all isWord))

/-- `os.path.join`, of two parts. -/
def join (dir name : String) : String :=
  if name.toList.head? = some '/' then name
  else if dir = "" ∨ dir.toList.getLast? = some '/' then dir ++ name
  else dir ++ "/" ++ name

/-- `os.path.split`. -/
def split (path : String) : FPath :=
  let head := (path.toList.reverse.dropWhile (· ≠ '/')).reverse
  let stripped := (head.reverse.dropWhile (· = '/')).reverse
  { dir := String.ofList (if stripped = [] then head else stripped)
    name := String.ofList (path.toList.reverse.takeWhile (· ≠ '/')).reverse }

/-- The file of `os.path.join(templates_dir, f"{name}.py")`. -/
def templatePath (dir name : String) : FPath := split (join dir (name ++ ".py"))

/-- What `Path.resolve` gives, unless it is the root. -/
def Resolved (dir : String) : Prop := dir.toList.getLast?.any (· ≠ '/')

instance (dir : String) : Decidable (Resolved dir) := inferInstanceAs (Decidable (_ = true))

/-- `read_text`: what is not UTF-8 is replaced, and line ends are made one. -/
def newlines : List Char → List Char
  | [] => []
  | '\r' :: '\n' :: cs => '\n' :: newlines cs
  | '\r' :: cs => '\n' :: newlines cs
  | c :: cs => c :: newlines cs

def readText (data : List UInt8) : String :=
  String.ofList (newlines (PercentCoding.decode 0 data))

/-- The bytes of a text. -/
def bytes (code : String) : List UInt8 := utf8 code.toList

/-! ### Requests -/

inductive Request
  | create (name code : String)
  | update (name code : String)
  | delete (name : String)

/-- Where a request stands. -/
inductive Phase
  | idle
  /-- Everything has been checked. -/
  | opening (name code : String)
  /-- It has opened the file, which had been removed so many times, and written so much. -/
  | writing (name code : String) (opened pos : ℕ)
  | removing (name : String)
  | answered (status : ℕ)
  deriving DecidableEq

structure State where
  files : Dict FPath (List UInt8)
  /-- How often the file of a path has been removed. -/
  removed : FPath → ℕ
  phase : ℕ → Phase
  nextId : ℕ
  /-- The names and texts that have passed the checks. -/
  accepted : List (String × String)
  templates : Templates
  /-- The events that the registry has not handled yet. -/
  queue : List CleanerRegistry.Event

inductive Event
  /-- A request comes in and makes its checks. -/
  | request (r : Request)
  /-- A request that has made them opens its file. -/
  | openFile (i : ℕ)
  /-- Up to `n` more bytes go out. -/
  | flush (i n : ℕ)
  | close (i : ℕ)
  | remove (i : ℕ)
  /-- The registry handles an event. -/
  | handle

/-- The last checks of `create_cleaner` and `update_cleaner`. -/
def parsed (name code : String) : Phase :=
  match S.parse code with
  | .error _ => .answered 422
  | .ok _ => .opening name code

/-- The checks a request makes. -/
def check (s : State) : Request → Phase
  | .create name code =>
    let name := Users.strip name
    if name = "" then .answered 400
    else if code = "" then .answered 400
    else if !nameMatches name then .answered 400
    else if (s.files.get? (templatePath S.dir name)).isSome then .answered 409
    else parsed S name code
  | .update name code =>
    if !nameMatches name then .answered 400
    else if code = "" then .answered 400
    else if (s.files.get? (templatePath S.dir name)).isNone then .answered 404
    else parsed S name code
  | .delete name =>
    if !nameMatches name then .answered 400
    else if (s.files.get? (templatePath S.dir name)).isNone then .answered 404
    else .removing name

/-- The text a request is about to write. -/
def Phase.toWrite : Phase → List (String × String)
  | .opening name code => [(name, code)]
  | _ => []

/-- The observer sees the files of the templates directory. -/
def notice (path : FPath) (e : String → CleanerRegistry.Event) : List CleanerRegistry.Event :=
  if path.dir = S.dir then [e path.name] else []

def State.setPhase (s : State) (i : ℕ) (phase : Phase) : State :=
  { s with phase := Function.update s.phase i phase }

/-- `open(fpath, "w")`. -/
def openFile (s : State) (i : ℕ) (name code : String) : State :=
  let path := templatePath S.dir name
  { s.setPhase i (.writing name code (s.removed path) 0) with
    files := s.files.set path []
    queue := s.queue ++
      notice S path (if (s.files.get? path).isSome then .modified else .created) }

/-- A piece of the text goes out. Events are told of a file that has been removed, too. -/
def flush (s : State) (i : ℕ) (name code : String) (opened pos : ℕ) (chunk : List UInt8) : State :=
  let path := templatePath S.dir name
  { s.setPhase i (.writing name code opened (pos + chunk.length)) with
    files :=
      if opened = s.removed path then
        s.files.set path (writeAt 0 ((s.files.get? path).getD []) pos chunk)
      else s.files
    queue := s.queue ++ notice S path .modified }

/-- `os.remove(fpath)`. -/
def remove (s : State) (i : ℕ) (name : String) : State :=
  let path := templatePath S.dir name
  if (s.files.get? path).isSome then
    { s.setPhase i (.answered 200) with
      files := s.files.erase path
      removed := Function.update s.removed path (s.removed path + 1)
      queue := s.queue ++ notice S path .deleted }
  else s.setPhase i (.answered 500)

lemma nodup_texts (l : List (FPath × List UInt8)) (h : (l.map Prod.fst).Nodup) (dir : String) :
    ((l.filterMap fun e =>
      if e.1.dir = dir then some (e.1.name, readText e.2) else none).map Prod.fst).Nodup := by
  induction l with
  | nil => exact List.nodup_nil
  | cons e l ih =>
    rw [List.map_cons, List.nodup_cons] at h
    by_cases hdir : e.1.dir = dir
    · rw [List.filterMap_cons, if_pos hdir, List.map_cons, List.nodup_cons]
      refine ⟨?_, ih h.2⟩
      intro hmem
      obtain ⟨f, hf, hname⟩ := List.mem_map.1 hmem
      obtain ⟨e', he', heq⟩ := List.mem_filterMap.1 hf
      split_ifs at heq with hdir'
      cases heq
      refine h.1 (List.mem_map.2 ⟨e', he', ?_⟩)
      exact congrArg₂ FPath.mk (hdir'.trans hdir.symm) hname
    · rw [List.filterMap_cons, if_neg hdir]
      exact ih h.2

/-- The texts of the files of the templates directory. -/
def texts (files : Dict FPath (List UInt8)) : CleanerRegistry.Files where
  entries := files.entries.filterMap fun e =>
    if e.1.dir = S.dir then some (e.1.name, readText e.2) else none
  nodup := nodup_texts files.entries files.nodup S.dir

def step (s : State) : Event → State
  | .request r =>
    { s.setPhase s.nextId (check S s r) with
      nextId := s.nextId + 1
      accepted := s.accepted ++ (check S s r).toWrite }
  | .openFile i =>
    match s.phase i with
    | .opening name code => openFile S s i name code
    | _ => s
  | .flush i n =>
    match s.phase i with
    | .writing name code opened pos =>
      let chunk := ((bytes code).drop pos).take n
      if chunk = [] then s else flush S s i name code opened pos chunk
    | _ => s
  | .close i =>
    match s.phase i with
    | .writing _ code _ pos =>
      if pos = (bytes code).length then s.setPhase i (.answered 200) else s
    | _ => s
  | .remove i =>
    match s.phase i with
    | .removing name => remove S s i name
    | _ => s
  | .handle =>
    match s.queue with
    | [] => s
    | e :: queue =>
      { s with templates := CleanerRegistry.handler S (texts S s.files) s.templates e, queue }

/-- The service starts, and the registry scans the directory. -/
def init (files : Dict FPath (List UInt8)) : State where
  files := files
  removed := fun _ => 0
  phase := fun _ => .idle
  nextId := 0
  accepted := []
  templates := CleanerRegistry.scan S (texts S files)
  queue := []

/-! ### Paths of templates -/

lemma slash_not_mem {name : String} (h : nameMatches name = true) : '/' ∉ name.toList := by
  rw [nameMatches] at h
  intro hmem
  have hall : ∀ l : List Char, l.all isWord = true → '/' ∉ l := by
    intro l hl hslash
    have := List.all_eq_true.1 hl _ hslash
    revert this
    decide
  cases hname : name.toList with
  | nil => rw [hname] at hmem; cases hmem
  | cons c rest =>
    rw [hname] at h hmem
    simp only [Bool.and_eq_true, Bool.or_eq_true, beq_iff_eq] at h
    rcases List.mem_cons.1 hmem with rfl | hrest
    · rcases h.1 with h1 | h1
      · revert h1; decide
      · revert h1; decide
    · rcases h.2 with h2 | ⟨hlast, h2⟩
      · exact hall _ h2 hrest
      · have hne : rest ≠ [] := List.ne_nil_of_mem hrest
        rw [List.getLast?_eq_some_getLast hne, Option.some_inj] at hlast
        rw [← List.dropLast_append_getLast hne, hlast, List.mem_append] at hrest
        rcases hrest with hrest | hrest
        · exact hall _ h2 hrest
        · revert hrest; decide

lemma slash_not_mem_file {name : String} (h : '/' ∉ name.toList) :
    '/' ∉ (name ++ ".py").toList := by
  rw [String.toList_append, List.mem_append]
  rintro (hmem | hmem)
  · exact h hmem
  · revert hmem; decide

lemma split_join {dir name : String} (hdir : Resolved dir) (hname : '/' ∉ name.toList) :
    split (join dir name) = ⟨dir, name⟩ := by
  obtain ⟨c, hlast, hc⟩ : ∃ c, dir.toList.getLast? = some c ∧ c ≠ '/' := by
    rw [Resolved, Option.any_eq_true] at hdir
    obtain ⟨c, hlast, hc⟩ := hdir
    exact ⟨c, hlast, of_decide_eq_true hc⟩
  obtain ⟨d, hd⟩ := List.getLast?_eq_some_iff.1 hlast
  have hhead : name.toList.head? ≠ some '/' := fun h => hname (List.mem_of_head? h)
  have hjoin : join dir name = dir ++ "/" ++ name := by
    rw [join, if_neg hhead, if_neg]
    rintro (h | h)
    · rw [h] at hlast; cases hlast
    · rw [hlast] at h; exact hc (Option.some_inj.1 h)
  -- `join` puts one slash between them, and `split` cuts at the last
  have hpath : (join dir name).toList = d ++ [c] ++ '/' :: name.toList := by
    rw [hjoin, String.toList_append, String.toList_append, hd, List.append_assoc]
    rfl
  have hrev : (join dir name).toList.reverse =
      name.toList.reverse ++ '/' :: (c :: d.reverse) := by
    rw [hpath]
    simp
  have hall : ∀ x ∈ name.toList.reverse, (fun x : Char => decide (x ≠ '/')) x = true := by
    intro x hx
    refine decide_eq_true fun hxs => hname ?_
    rw [← hxs]
    exact List.mem_reverse.1 hx
  have htail : (join dir name).toList.reverse.takeWhile (· ≠ '/') = name.toList.reverse := by
    rw [hrev, List.takeWhile_append_of_pos hall]
    simp
  have hrest : (join dir name).toList.reverse.dropWhile (· ≠ '/') = '/' :: c :: d.reverse := by
    rw [hrev, List.dropWhile_append_of_pos hall]
    simp
  have hstrip : ('/' :: c :: d.reverse).dropWhile (· = '/') = c :: d.reverse := by
    rw [List.dropWhile_cons_of_pos (by simp), List.dropWhile_cons_of_neg (by simpa using hc)]
  simp only [split, hrest, htail, List.reverse_reverse, hstrip]
  rw [if_neg (by simp), String.ofList_toList, List.reverse_cons, List.reverse_reverse, ← hd,
    String.ofList_toList]

/-- **The path of a template** is that of a file right in the directory, whatever the name that
has been let through. -/
lemma templatePath_eq {dir name : String} (hdir : Resolved dir) (hname : nameMatches name = true) :
    templatePath dir name = ⟨dir, name ++ ".py"⟩ :=
  split_join hdir (slash_not_mem_file (slash_not_mem hname))

/-! ### What a step does -/

/-- What a request is let through with. -/
structure Accepts (name code : String) : Prop where
  name_ok : nameMatches name = true
  code_ne : code ≠ ""
  parses : ∃ m, S.parse code = .ok m

/-- The steps, each with what it found. -/
inductive Does (s : State) : Event → State → Prop
  | skip (e : Event) : Does s e s
  | request (r : Request) : Does s (.request r)
      { s.setPhase s.nextId (check S s r) with
        nextId := s.nextId + 1
        accepted := s.accepted ++ (check S s r).toWrite }
  | opened {i : ℕ} {name code : String} (hphase : s.phase i = .opening name code) :
      Does s (.openFile i) (openFile S s i name code)
  | flushed {i n : ℕ} {name code : String} {opened pos : ℕ}
      (hphase : s.phase i = .writing name code opened pos)
      (hchunk : ((bytes code).drop pos).take n ≠ []) :
      Does s (.flush i n) (flush S s i name code opened pos (((bytes code).drop pos).take n))
  | closed {i : ℕ} {name code : String} {opened pos : ℕ}
      (hphase : s.phase i = .writing name code opened pos) (hpos : pos = (bytes code).length) :
      Does s (.close i) (s.setPhase i (.answered 200))
  | removed {i : ℕ} {name : String} (hphase : s.phase i = .removing name) :
      Does s (.remove i) (remove S s i name)
  | handled {e : CleanerRegistry.Event} {queue : List CleanerRegistry.Event}
      (hqueue : s.queue = e :: queue) : Does s .handle
      { s with templates := CleanerRegistry.handler S (texts S s.files) s.templates e, queue }

lemma step_does (s : State) (e : Event) : Does S s e (step S s e) := by
  cases e with
  | request r => exact .request r
  | openFile i =>
    rw [step]
    split
    · next hphase => exact .opened hphase
    · exact .skip _
  | flush i n =>
    rw [step]
    split
    · next hphase =>
      dsimp only
      split_ifs with hchunk
      · exact .skip _
      · exact .flushed hphase hchunk
    · exact .skip _
  | close i =>
    rw [step]
    split
    · next hphase =>
      split_ifs with hpos
      · exact .closed hphase hpos
      · exact .skip _
    · exact .skip _
  | remove i =>
    rw [step]
    split
    · next hphase => exact .removed hphase
    · exact .skip _
  | handle =>
    rw [step]
    split
    · exact .skip _
    · next hqueue => exact .handled hqueue

variable {S} {s : State}

lemma check_cases (s : State) (r : Request) :
    (∃ status, check S s r = .answered status) ∨
      (∃ name code, check S s r = .opening name code ∧ Accepts S name code) ∨
        ∃ name, check S s r = .removing name ∧ nameMatches name = true := by
  have hparsed : ∀ name code, nameMatches name = true → code ≠ "" →
      (∃ status, parsed S name code = .answered status) ∨
        (∃ name' code', parsed S name code = .opening name' code' ∧ Accepts S name' code') ∨
          ∃ name', parsed S name code = .removing name' ∧ nameMatches name' = true := by
    intro name code hname hcode
    rw [parsed]
    cases hparse : S.parse code with
    | error message => exact .inl ⟨_, rfl⟩
    | ok m => exact .inr (.inl ⟨name, code, rfl, hname, hcode, m, hparse⟩)
  cases r with
  | create name code =>
    rw [check]
    split_ifs with hempty hcode hname hfile
    · exact .inl ⟨_, rfl⟩
    · exact .inl ⟨_, rfl⟩
    · exact .inl ⟨_, rfl⟩
    · exact .inl ⟨_, rfl⟩
    · exact hparsed _ _ (by simpa using hname) hcode
  | update name code =>
    rw [check]
    split_ifs with hname hcode hfile
    · exact .inl ⟨_, rfl⟩
    · exact .inl ⟨_, rfl⟩
    · exact .inl ⟨_, rfl⟩
    · exact hparsed _ _ (by simpa using hname) hcode
  | delete name =>
    rw [check]
    split_ifs with hname hfile
    · exact .inl ⟨_, rfl⟩
    · exact .inl ⟨_, rfl⟩
    · exact .inr (.inr ⟨name, rfl, by simpa using hname⟩)

/-! ### What the requests have in hand -/

/-- A request that is past its checks has in hand what they let through. -/
def Phase.Sound (accepted : List (String × String)) : Phase → Prop
  | .opening name code => (name, code) ∈ accepted
  | .writing name code _ pos => (name, code) ∈ accepted ∧ pos ≤ (bytes code).length
  | .removing name => nameMatches name = true
  | .idle | .answered _ => True

variable (S) in
structure Inv (s : State) : Prop where
  sound : ∀ i, (s.phase i).Sound s.accepted
  accepts : ∀ p ∈ s.accepted, Accepts S p.1 p.2
  fresh : ∀ i, s.nextId ≤ i → s.phase i = .idle

lemma Phase.Sound.append {accepted : List (String × String)} {phase : Phase}
    (h : phase.Sound accepted) (more : List (String × String)) :
    phase.Sound (accepted ++ more) := by
  cases phase with
  | idle => trivial
  | opening name code => exact List.mem_append_left _ h
  | writing name code opened pos => exact ⟨List.mem_append_left _ h.1, h.2⟩
  | removing name => exact h
  | answered status => trivial

lemma Inv.opening (hi : Inv S s) {i : ℕ} {name code : String}
    (h : s.phase i = .opening name code) : (name, code) ∈ s.accepted := by
  have := hi.sound i
  rwa [h] at this

lemma Inv.writing (hi : Inv S s) {i : ℕ} {name code : String} {opened pos : ℕ}
    (h : s.phase i = .writing name code opened pos) :
    (name, code) ∈ s.accepted ∧ pos ≤ (bytes code).length := by
  have := hi.sound i
  rwa [h] at this

lemma Inv.removing (hi : Inv S s) {i : ℕ} {name : String} (h : s.phase i = .removing name) :
    nameMatches name = true := by
  have := hi.sound i
  rwa [h] at this

lemma Inv.setPhase (hi : Inv S s) {i : ℕ} {phase : Phase} (hold : s.phase i ≠ .idle)
    (h : phase.Sound s.accepted) : Inv S (s.setPhase i phase) := by
  refine ⟨fun j => ?_, hi.accepts, fun j hj => ?_⟩
  · dsimp only [State.setPhase]
    by_cases hji : j = i
    · subst hji
      rwa [Function.update_self]
    · rw [Function.update_of_ne hji]
      exact hi.sound j
  · have hji : j ≠ i := by
      rintro rfl
      exact hold (hi.fresh _ hj)
    dsimp only [State.setPhase]
    rw [Function.update_of_ne hji]
    exact hi.fresh j hj

lemma Inv.request (hi : Inv S s) (r : Request) :
    Inv S { s.setPhase s.nextId (check S s r) with
      nextId := s.nextId + 1
      accepted := s.accepted ++ (check S s r).toWrite } := by
  have hphase : (check S s r).Sound (s.accepted ++ (check S s r).toWrite) ∧
      ∀ p ∈ (check S s r).toWrite, Accepts S p.1 p.2 := by
    rcases check_cases (S := S) s r with ⟨status, h⟩ | ⟨name, code, h, hacc⟩ | ⟨name, h, hname⟩
    · -- refused: nothing is accepted
      rw [h]
      exact ⟨trivial, fun p hp => absurd hp List.not_mem_nil⟩
    · rw [h]
      refine ⟨List.mem_append_right _ List.mem_cons_self, fun p hp => ?_⟩
      obtain rfl := List.mem_singleton.1 hp
      exact hacc
    · rw [h]
      exact ⟨hname, fun p hp => absurd hp List.not_mem_nil⟩
  refine ⟨fun j => ?_, fun p hp => ?_, fun j hj => ?_⟩
  · dsimp only [State.setPhase]
    by_cases hj : j = s.nextId
    · subst hj
      rw [Function.update_self]
      exact hphase.1
    · rw [Function.update_of_ne hj]
      exact (hi.sound j).append _
  · rcases List.mem_append.1 hp with hp | hp
    · exact hi.accepts p hp
    · exact hphase.2 p hp
  · have hj : s.nextId + 1 ≤ j := hj
    dsimp only [State.setPhase]
    rw [Function.update_of_ne (by omega)]
    exact hi.fresh j (by omega)

lemma Inv.does {e : Event} {s' : State} (hi : Inv S s) (h : Does S s e s') : Inv S s' := by
  cases h with
  | skip => exact hi
  | request r => exact hi.request r
  | @opened i name code hphase =>
    have hset : Inv S (s.setPhase i (.writing name code (s.removed (templatePath S.dir name)) 0)) :=
      hi.setPhase (by rw [hphase]; exact nofun) ⟨hi.opening hphase, Nat.zero_le _⟩
    exact ⟨hset.sound, hset.accepts, hset.fresh⟩
  | @flushed i n name code opened pos hphase hchunk =>
    obtain ⟨hmem, hpos⟩ := hi.writing hphase
    have hlen : pos + (((bytes code).drop pos).take n).length ≤ (bytes code).length := by
      rw [List.length_take, List.length_drop]
      omega
    have hset : Inv S (s.setPhase i
        (.writing name code opened (pos + (((bytes code).drop pos).take n).length))) :=
      hi.setPhase (by rw [hphase]; exact nofun) ⟨hmem, hlen⟩
    exact ⟨hset.sound, hset.accepts, hset.fresh⟩
  | closed hphase hpos => exact hi.setPhase (by rw [hphase]; exact nofun) trivial
  | @removed i name hphase =>
    have hold : s.phase i ≠ .idle := by
      rw [hphase]
      exact nofun
    rw [remove]
    split_ifs
    · have hset : Inv S (s.setPhase i (.answered 200)) := hi.setPhase hold trivial
      exact ⟨hset.sound, hset.accepts, hset.fresh⟩
    · exact hi.setPhase hold trivial
  | handled hqueue => exact ⟨hi.sound, hi.accepts, hi.fresh⟩

lemma Inv.step (hi : Inv S s) (e : Event) : Inv S (step S s e) := hi.does (step_does S s e)

lemma inv_init (files : Dict FPath (List UInt8)) : Inv S (init S files) :=
  ⟨fun _ => trivial, fun _ hp => absurd hp List.not_mem_nil, fun _ _ => rfl⟩

/-! ### Where the bytes of a file are from -/

variable (S) in
/-- The path of a template that a request can name. -/
def Named (path : FPath) : Prop :=
  ∃ name, nameMatches name = true ∧ path = ⟨S.dir, name ++ ".py"⟩

variable (S) in
/-- A byte at its place: it fills a gap, or stands there in the file that was there at the start or
in a text that was let through for this file. -/
def FromSource (files : Dict FPath (List UInt8)) (s : State) (path : FPath) (k : ℕ) (b : UInt8) :
    Prop :=
  b = 0 ∨ (∃ data, files.get? path = some data ∧ data[k]? = some b) ∨
    ∃ p ∈ s.accepted, path = ⟨S.dir, p.1 ++ ".py"⟩ ∧ (bytes p.2)[k]? = some b

variable (S) in
structure Confined (files : Dict FPath (List UInt8)) (s : State) : Prop where
  outside : ∀ path, ¬ Named S path → s.files.get? path = files.get? path
  inside : ∀ path data k b, s.files.get? path = some data → data[k]? = some b →
    FromSource S files s path k b

variable {files : Dict FPath (List UInt8)}

lemma FromSource.mono {s' : State} (hacc : s.accepted ⊆ s'.accepted) {path : FPath} {k : ℕ}
    {b : UInt8} (h : FromSource S files s path k b) : FromSource S files s' path k b := by
  rcases h with h | h | ⟨p, hp, h⟩
  · exact .inl h
  · exact .inr (.inl h)
  · exact .inr (.inr ⟨p, hacc hp, h⟩)

lemma Confined.congr {s' : State} (h : Confined S files s) (hfiles : s'.files = s.files)
    (hacc : s.accepted ⊆ s'.accepted) : Confined S files s' := by
  refine ⟨fun path hpath => ?_, fun path data k b hdata hb => ?_⟩
  · rw [hfiles]
    exact h.outside path hpath
  · rw [hfiles] at hdata
    exact (h.inside path data k b hdata hb).mono hacc

lemma Confined.set {s' : State} {data : List UInt8} (h : Confined S files s) (path : FPath)
    (hpath : Named S path) (hfiles : s'.files = s.files.set path data)
    (hacc : s'.accepted = s.accepted)
    (hdata : ∀ k b, data[k]? = some b → FromSource S files s path k b) : Confined S files s' := by
  have hsub : s.accepted ⊆ s'.accepted := by
    rw [hacc]
    exact List.Subset.refl _
  refine ⟨fun q hq => ?_, fun q data' k b hdata' hb => ?_⟩
  · have hne : q ≠ path := fun he => hq (he ▸ hpath)
    rw [hfiles, Dict.get?_set_of_ne _ _ hne]
    exact h.outside q hq
  · rw [hfiles, Dict.get?_set] at hdata'
    split_ifs at hdata' with hq
    · subst hq
      cases hdata'
      exact (hdata k b hb).mono hsub
    · exact (h.inside q data' k b hdata' hb).mono hsub

lemma Confined.erase {s' : State} (h : Confined S files s) (path : FPath) (hpath : Named S path)
    (hfiles : s'.files = s.files.erase path) (hacc : s'.accepted = s.accepted) :
    Confined S files s' := by
  have hsub : s.accepted ⊆ s'.accepted := by
    rw [hacc]
    exact List.Subset.refl _
  refine ⟨fun q hq => ?_, fun q data' k b hdata' hb => ?_⟩
  · have hne : q ≠ path := fun he => hq (he ▸ hpath)
    rw [hfiles, Dict.get?_erase_of_ne _ hne]
    exact h.outside q hq
  · rw [hfiles, Dict.get?_erase] at hdata'
    split_ifs at hdata' with hq
    exact (h.inside q data' k b hdata' hb).mono hsub

lemma Inv.path_eq (hi : Inv S s) (hdir : Resolved S.dir) {name code : String}
    (h : (name, code) ∈ s.accepted) : templatePath S.dir name = ⟨S.dir, name ++ ".py"⟩ :=
  templatePath_eq hdir (hi.accepts _ h).name_ok

lemma Confined.flush (h : Confined S files s) (hi : Inv S s) (hdir : Resolved S.dir) {i n : ℕ}
    {name code : String} {opened pos : ℕ} (hmem : (name, code) ∈ s.accepted) :
    Confined S files (flush S s i name code opened pos (((bytes code).drop pos).take n)) := by
  have hpath := hi.path_eq hdir hmem
  by_cases hopened : opened = s.removed (templatePath S.dir name)
  · refine h.set ⟨S.dir, name ++ ".py"⟩ ⟨name, (hi.accepts _ hmem).name_ok, rfl⟩
      (by rw [TemplateApi.flush, if_pos hopened, hpath]) rfl fun k b hb => ?_
    rcases getElem?_writeAt hb with ⟨-, hold⟩ | ⟨-, hgap⟩ | ⟨hle, hnew⟩
    · cases hget : s.files.get? ⟨S.dir, name ++ ".py"⟩ with
      | none => rw [hget] at hold; cases hold
      | some data =>
        rw [hget] at hold
        exact h.inside _ data k b hget hold
    · exact .inl hgap
    · -- the piece stands where it stands in the text
      rw [List.getElem?_take] at hnew
      split_ifs at hnew
      rw [List.getElem?_drop] at hnew
      have hindex : pos + (k - pos) = k := by omega
      rw [hindex] at hnew
      exact .inr (.inr ⟨(name, code), hmem, rfl, hnew⟩)
  · exact h.congr (by rw [TemplateApi.flush, if_neg hopened]) (fun _ hp => hp)

lemma Confined.does {e : Event} {s' : State} (h : Confined S files s) (hi : Inv S s)
    (hdir : Resolved S.dir) (hdoes : Does S s e s') : Confined S files s' := by
  cases hdoes with
  | skip => exact h
  | request r => exact h.congr rfl (List.subset_append_left _ _)
  | @opened i name code hphase =>
    have hmem := hi.opening hphase
    refine h.set ⟨S.dir, name ++ ".py"⟩ ⟨name, (hi.accepts _ hmem).name_ok, rfl⟩
      (by rw [openFile, hi.path_eq hdir hmem]) rfl fun k b hb => ?_
    cases hb
  | flushed hphase hchunk => exact h.flush hi hdir (hi.writing hphase).1
  | closed hphase hpos => exact h.congr rfl (fun _ hp => hp)
  | @removed i name hphase =>
    have hname := hi.removing hphase
    rw [remove]
    split_ifs
    · exact h.erase ⟨S.dir, name ++ ".py"⟩ ⟨name, hname, rfl⟩
        (by rw [templatePath_eq hdir hname]) rfl
    · exact h.congr rfl (fun _ hp => hp)
  | handled hqueue => exact h.congr rfl (fun _ hp => hp)

lemma confined_init (files : Dict FPath (List UInt8)) : Confined S files (init S files) :=
  ⟨fun _ _ => rfl, fun _ data _ _ hdata hb => .inr (.inl ⟨data, hdata, hb⟩)⟩

/-- **Requests are confined** to the templates they can name, whatever they name and in whatever
order their steps come. No other file changes, and no byte gets into a template but at its place in
a text that was let through for this template. -/
theorem always_confined (S : Setting τ) (hdir : Resolved S.dir) (files : Dict FPath (List UInt8))
    (es : List Event) :
    Always (step S) (fun s => (∀ p ∈ s.accepted, Accepts S p.1 p.2) ∧ Confined S files s)
      (init S files) es := by
  have h : Always (step S) (fun s => Inv S s ∧ Confined S files s) (init S files) es := by
    refine always_of_step (fun s e hs => ?_) ⟨inv_init files, confined_init files⟩ es
    exact ⟨hs.1.step e, hs.2.does hs.1 hdir (step_does S s e)⟩
  exact h.mono fun s hs => ⟨hs.1.accepts, hs.2⟩

/-- A template is created, and the registry handles the events of its file. -/
def created : List Event :=
  [.request (.create " a" "def clean_data(df): return df"), .openFile 0, .flush 0 20, .handle,
    .flush 0 8192, .close 0, .handle, .handle]

theorem always_confined_created :
    Always (step CleanerRegistry.sample)
      (fun s => (∀ p ∈ s.accepted, Accepts CleanerRegistry.sample p.1 p.2) ∧
        Confined CleanerRegistry.sample Dict.empty s)
      (init CleanerRegistry.sample Dict.empty) created :=
  always_confined CleanerRegistry.sample (by decide) Dict.empty created

/-! ### Whole texts -/

/-- The request `i` has the file of the template open. -/
def Writes (s : State) (i : ℕ) (name : String) : Prop :=
  ∃ code opened pos, s.phase i = .writing name code opened pos

variable (S) in
/-- The file of a template has just what the request that writes it has written so far. Where none
writes it, it is as it was at the start or has the whole text of a request. -/
structure IntactAt (files : Dict FPath (List UInt8)) (s : State) (name : String) : Prop where
  written : ∀ i code opened pos, s.phase i = .writing name code opened pos →
    opened = s.removed ⟨S.dir, name ++ ".py"⟩ ∧
      s.files.get? ⟨S.dir, name ++ ".py"⟩ = some ((bytes code).take pos)
  whole : ∀ data, s.files.get? ⟨S.dir, name ++ ".py"⟩ = some data → (∀ i, ¬ Writes s i name) →
    files.get? ⟨S.dir, name ++ ".py"⟩ = some data ∨
      ∃ code, (name, code) ∈ s.accepted ∧ data = bytes code

variable (S) in
def Intact (files : Dict FPath (List UInt8)) (s : State) : Prop := ∀ name, IntactAt S files s name

/-- No request touches a file that another one is writing. -/
def Undisturbed (s : State) : Event → Prop
  | .openFile i => ∀ name code, s.phase i = .opening name code →
      ∀ j code' opened pos, s.phase j = .writing name code' opened pos → pos = 0
  | .flush i n => ∀ name code opened pos, s.phase i = .writing name code opened pos →
      0 < n → pos < (bytes code).length → ∀ j, j ≠ i → ¬ Writes s j name
  | .remove i => ∀ name, s.phase i = .removing name → ∀ j, ¬ Writes s j name
  | _ => True

lemma IntactAt.congr {s' : State} {name : String} (h : IntactAt S files s name)
    (hfile : s'.files.get? ⟨S.dir, name ++ ".py"⟩ = s.files.get? ⟨S.dir, name ++ ".py"⟩)
    (hremoved : s'.removed ⟨S.dir, name ++ ".py"⟩ = s.removed ⟨S.dir, name ++ ".py"⟩)
    (hphase : ∀ j code opened pos, s'.phase j = .writing name code opened pos ↔
      s.phase j = .writing name code opened pos)
    (hacc : s.accepted ⊆ s'.accepted) : IntactAt S files s' name := by
  refine ⟨fun j code opened pos hj => ?_, fun data hdata hnone => ?_⟩
  · rw [hfile, hremoved]
    exact h.written j code opened pos ((hphase j code opened pos).1 hj)
  · rw [hfile] at hdata
    have hnone' : ∀ j, ¬ Writes s j name := by
      rintro j ⟨code, opened, pos, hj⟩
      exact hnone j ⟨code, opened, pos, (hphase j code opened pos).2 hj⟩
    rcases h.whole data hdata hnone' with h | ⟨code, hmem, h⟩
    · exact .inl h
    · exact .inr ⟨code, hacc hmem, h⟩

lemma writing_update {phase phase' : Phase} {i : ℕ} {name : String} (hi : s.phase i = phase)
    (hold : ∀ code opened pos, phase ≠ .writing name code opened pos)
    (hnew : ∀ code opened pos, phase' ≠ .writing name code opened pos) (j : ℕ) (code : String)
    (opened pos : ℕ) : Function.update s.phase i phase' j = .writing name code opened pos ↔
      s.phase j = .writing name code opened pos := by
  by_cases hj : j = i
  · subst hj
    rw [Function.update_self, hi]
    exact ⟨fun h => absurd h (hnew _ _ _), fun h => absurd h (hold _ _ _)⟩
  · rw [Function.update_of_ne hj]

lemma path_ne {name name' dir : String} (h : name' ≠ name) :
    (⟨dir, name' ++ ".py"⟩ : FPath) ≠ ⟨dir, name ++ ".py"⟩ :=
  fun he => h (CleanerRegistry.append_py_inj (FPath.mk.inj he).2)

lemma Intact.pos_eq (h : Intact S files s) (hi : Inv S s) {i j : ℕ} {name code code' : String}
    {opened opened' pos pos' : ℕ} (hphase : s.phase i = .writing name code opened pos)
    (hphase' : s.phase j = .writing name code' opened' pos') : pos = pos' := by
  have hfile := ((h name).written i code opened pos hphase).2
  have hfile' := ((h name).written j code' opened' pos' hphase').2
  have hlen := congrArg List.length (Option.some_inj.1 (hfile.symm.trans hfile'))
  have hpos := (hi.writing hphase).2
  have hpos' := (hi.writing hphase').2
  rw [List.length_take, List.length_take] at hlen
  omega

/-! ### One step -/

lemma Intact.openFile (h : Intact S files s) (hi : Inv S s) (hdir : Resolved S.dir) {i : ℕ}
    {name code : String} (hphase : s.phase i = .opening name code)
    (hun : Undisturbed s (.openFile i)) : Intact S files (openFile S s i name code) := by
  have hpath := hi.path_eq hdir (hi.opening hphase)
  intro name'
  by_cases hname : name' = name
  · subst hname
    have hfile : (TemplateApi.openFile S s i name' code).files.get? ⟨S.dir, name' ++ ".py"⟩ =
        some [] := by
      rw [TemplateApi.openFile, hpath]
      exact Dict.get?_set_self _ _ _
    have hself : (TemplateApi.openFile S s i name' code).phase i =
        .writing name' code (s.removed ⟨S.dir, name' ++ ".py"⟩) 0 := by
      rw [TemplateApi.openFile, hpath]
      exact Function.update_self _ _ _
    refine ⟨fun j code' opened pos hj => ?_, fun data _ hnone => ?_⟩
    · -- opening truncates: whoever else writes the file must still be at its start
      by_cases hji : j = i
      · subst hji
        rw [hself] at hj
        cases hj
        exact ⟨rfl, hfile⟩
      · have hj' : s.phase j = .writing name' code' opened pos := by
          rw [TemplateApi.openFile] at hj
          exact (Function.update_of_ne hji _ _).symm.trans hj
        obtain rfl := hun name' code hphase j code' opened pos hj'
        exact ⟨((h name').written j code' opened 0 hj').1, hfile⟩
    · exact absurd ⟨_, _, _, hself⟩ (hnone i)
  · refine (h name').congr ?_ rfl ?_ (fun _ hp => hp)
    · rw [TemplateApi.openFile, hpath]
      exact Dict.get?_set_of_ne _ _ (path_ne hname)
    · exact writing_update hphase (by intro _ _ _ he; cases he)
        (by intro _ _ _ he; exact hname (Phase.writing.inj he).1.symm)

lemma Intact.flush (h : Intact S files s) (hi : Inv S s) (hdir : Resolved S.dir) {i n : ℕ}
    {name code : String} {opened pos : ℕ} (hphase : s.phase i = .writing name code opened pos)
    (halone : ∀ j, j ≠ i → ¬ Writes s j name) :
    Intact S files (flush S s i name code opened pos (((bytes code).drop pos).take n)) := by
  obtain ⟨hmem, hpos⟩ := hi.writing hphase
  have hpath := hi.path_eq hdir hmem
  obtain ⟨hopened, hfile⟩ := (h name).written i code opened pos hphase
  intro name'
  by_cases hname : name' = name
  · subst hname
    refine ⟨fun j code' opened' pos' hj => ?_, fun data _ hnone => ?_⟩
    · by_cases hji : j = i
      · subst hji
        rw [TemplateApi.flush] at hj
        have hj := (Function.update_self _ _ _).symm.trans hj
        cases hj
        refine ⟨hopened, ?_⟩
        -- the file ends where the chunk goes: it becomes a longer piece of the code
        rw [TemplateApi.flush, hpath, if_pos hopened, hfile, Option.getD_some, writeAt_take hpos]
        have hcount : (bytes code).take (pos + n) =
            (bytes code).take (pos + (((bytes code).drop pos).take n).length) := by
          rw [List.take_eq_take_iff, List.length_take, List.length_drop]
          omega
        rw [← hcount]
        exact Dict.get?_set_self _ _ _
      · rw [TemplateApi.flush] at hj
        have hj := (Function.update_of_ne hji _ _).symm.trans hj
        exact absurd ⟨_, _, _, hj⟩ (halone j hji)
    · have hself : (TemplateApi.flush S s i name' code opened pos
          (((bytes code).drop pos).take n)).phase i = .writing name' code opened
            (pos + (((bytes code).drop pos).take n).length) := Function.update_self _ _ _
      exact absurd ⟨code, opened, _, hself⟩ (hnone i)
  · refine (h name').congr ?_ rfl ?_ (fun _ hp => hp)
    · rw [TemplateApi.flush, hpath, if_pos hopened]
      exact Dict.get?_set_of_ne _ _ (path_ne hname)
    · exact writing_update hphase (by intro _ _ _ he; exact hname (Phase.writing.inj he).1.symm)
        (by intro _ _ _ he; exact hname (Phase.writing.inj he).1.symm)

lemma Intact.close (h : Intact S files s) (hi : Inv S s) {i : ℕ} {name code : String}
    {opened pos : ℕ} (hphase : s.phase i = .writing name code opened pos)
    (hend : pos = (bytes code).length) : Intact S files (s.setPhase i (.answered 200)) := by
  obtain ⟨hmem, -⟩ := hi.writing hphase
  intro name'
  by_cases hname : name' = name
  · subst hname
    refine ⟨fun j code' opened' pos' hj => ?_, fun data hdata _ => ?_⟩
    · have hj : Function.update s.phase i (.answered 200) j = .writing name' code' opened' pos' :=
        hj
      by_cases hji : j = i
      · subst hji
        rw [Function.update_self] at hj
        cases hj
      · rw [Function.update_of_ne hji] at hj
        exact (h name').written j code' opened' pos' hj
    · -- all bytes are flushed: the file is the whole code
      have hfile := ((h name').written i code opened pos hphase).2
      rw [hend, List.take_length] at hfile
      have hdata : s.files.get? ⟨S.dir, name' ++ ".py"⟩ = some data := hdata
      rw [hfile] at hdata
      exact .inr ⟨code, hmem, (Option.some_inj.1 hdata).symm⟩
  · refine (h name').congr rfl rfl ?_ (fun _ hp => hp)
    exact writing_update hphase (by intro _ _ _ he; exact hname (Phase.writing.inj he).1.symm)
      (by intro _ _ _ he; cases he)

lemma Intact.remove (h : Intact S files s) (hi : Inv S s) (hdir : Resolved S.dir) {i : ℕ}
    {name : String} (hphase : s.phase i = .removing name)
    (hun : ∀ j, ¬ Writes s j name) : Intact S files (remove S s i name) := by
  have hpath := templatePath_eq hdir (hi.removing hphase)
  have hgoes : ∀ name' status j code opened pos,
      Function.update s.phase i (.answered status) j = .writing name' code opened pos ↔
        s.phase j = .writing name' code opened pos := by
    intro name' status
    exact writing_update hphase (by intro _ _ _ he; cases he) (by intro _ _ _ he; cases he)
  rw [TemplateApi.remove, hpath]
  split_ifs with hfile
  · intro name'
    by_cases hname : name' = name
    · subst hname
      refine ⟨fun j code opened pos hj => ?_, fun data hdata _ => ?_⟩
      · exact absurd ⟨code, opened, pos, (hgoes name' 200 j code opened pos).1 hj⟩ (hun j)
      · have hnone : (s.files.erase ⟨S.dir, name' ++ ".py"⟩).get? ⟨S.dir, name' ++ ".py"⟩ =
          none := Dict.get?_erase_self _ _
        exact absurd (hnone.symm.trans hdata).symm (Option.some_ne_none _)
    · refine (h name').congr ?_ ?_ (hgoes name' 200) (fun _ hp => hp)
      · exact Dict.get?_erase_of_ne _ (path_ne hname)
      · exact Function.update_of_ne (path_ne hname) _ _
  · intro name'
    exact (h name').congr rfl rfl (hgoes name' 500) (fun _ hp => hp)

lemma Intact.request (h : Intact S files s) (hi : Inv S s) (r : Request) :
    Intact S files { s.setPhase s.nextId (check S s r) with
      nextId := s.nextId + 1
      accepted := s.accepted ++ (check S s r).toWrite } := by
  intro name
  refine (h name).congr rfl rfl ?_ (List.subset_append_left _ _)
  refine writing_update (hi.fresh _ le_rfl) (by intro _ _ _ he; cases he) ?_
  intro code opened pos he
  rcases check_cases (S := S) s r with ⟨status, hc⟩ | ⟨name', code', hc, -⟩ | ⟨name', hc, -⟩
  · rw [hc] at he; cases he
  · rw [hc] at he; cases he
  · rw [hc] at he; cases he

lemma Intact.does {e : Event} {s' : State} (h : Intact S files s) (hi : Inv S s)
    (hdir : Resolved S.dir) (hun : Undisturbed s e) (hdoes : Does S s e s') :
    Intact S files s' := by
  cases hdoes with
  | skip => exact h
  | request r => exact h.request hi r
  | opened hphase => exact h.openFile hi hdir hphase hun
  | @flushed i n name code opened pos hphase hchunk =>
    have hn : 0 < n := by
      rcases Nat.eq_zero_or_pos n with rfl | hn
      · exact absurd (List.take_zero) hchunk
      · exact hn
    have hpos : pos < (bytes code).length := by
      by_contra hle
      rw [List.drop_of_length_le (by omega), List.take_nil] at hchunk
      exact hchunk rfl
    exact h.flush hi hdir hphase (hun name code opened pos hphase hn hpos)
  | closed hphase hpos => exact h.close hi hphase hpos
  | removed hphase => exact h.remove hi hdir hphase (hun _ hphase)
  | handled hqueue =>
    intro name
    exact (h name).congr rfl rfl (fun _ _ _ _ => Iff.rfl) (fun _ hp => hp)

/-- A step that leaves the files intact has touched none that another request is writing. -/
lemma Intact.undisturbed {e : Event} (h : Intact S files s) (hi : Inv S s) (hdir : Resolved S.dir)
    (hnext : Intact S files (step S s e)) : Undisturbed s e := by
  cases e with
  | openFile i =>
    intro name code hphase j code' opened pos hj
    have hji : j ≠ i := by
      rintro rfl
      rw [hphase] at hj
      cases hj
    rw [step, hphase] at hnext
    have hpath := hi.path_eq hdir (hi.opening hphase)
    have hj' : (TemplateApi.openFile S s i name code).phase j =
        .writing name code' opened pos := (Function.update_of_ne hji _ _).trans hj
    have hfile := ((hnext name).written j code' opened pos hj').2
    have hempty : (TemplateApi.openFile S s i name code).files.get? ⟨S.dir, name ++ ".py"⟩ =
        some [] := by
      rw [TemplateApi.openFile, hpath]
      exact Dict.get?_set_self _ _ _
    -- the other writer finds its first `pos` bytes gone
    have hlen := congrArg List.length (Option.some_inj.1 (hempty.symm.trans hfile))
    have hpos := (hi.writing hj).2
    rw [List.length_take, List.length_nil] at hlen
    omega
  | flush i n =>
    rintro name code opened pos hphase hn hpos j hji ⟨code', opened', pos', hj⟩
    have hchunk : (((bytes code).drop pos).take n).length ≠ 0 := by
      rw [List.length_take, List.length_drop]
      omega
    have hne : ((bytes code).drop pos).take n ≠ [] := fun he => hchunk (by rw [he]; rfl)
    -- both stand at the end of the file before and after, but only one has moved
    have heq := h.pos_eq hi hphase hj
    have hi' := hi.step (.flush i n)
    rw [step, hphase] at hnext hi'
    dsimp only at hnext hi'
    rw [if_neg hne] at hnext hi'
    have hself : (TemplateApi.flush S s i name code opened pos
        (((bytes code).drop pos).take n)).phase i = .writing name code opened
          (pos + (((bytes code).drop pos).take n).length) := Function.update_self _ _ _
    have hj' : (TemplateApi.flush S s i name code opened pos
        (((bytes code).drop pos).take n)).phase j = .writing name code' opened' pos' :=
      (Function.update_of_ne hji _ _).trans hj
    have heq' := hnext.pos_eq hi' hself hj'
    omega
  | remove i =>
    rintro name hphase j ⟨code, opened, pos, hj⟩
    have hji : j ≠ i := by
      rintro rfl
      rw [hphase] at hj
      cases hj
    have hpath := templatePath_eq hdir (hi.removing hphase)
    obtain ⟨hopened, hfile⟩ := (h name).written j code opened pos hj
    have hthere : (s.files.get? ⟨S.dir, name ++ ".py"⟩).isSome = true := by
      rw [hfile]
      rfl
    rw [step, hphase] at hnext
    dsimp only at hnext
    rw [TemplateApi.remove, hpath, if_pos hthere] at hnext
    have hfile' := ((hnext name).written j code opened pos
      ((Function.update_of_ne hji _ _).trans hj)).2
    have hgone : (s.files.erase ⟨S.dir, name ++ ".py"⟩).get? ⟨S.dir, name ++ ".py"⟩ = none :=
      Dict.get?_erase_self _ _
    exact Option.some_ne_none _ (hgone.symm.trans hfile').symm
  | request r => trivial
  | close i => trivial
  | handle => trivial

lemma intact_init (files : Dict FPath (List UInt8)) : Intact S files (init S files) := by
  intro name
  refine ⟨fun i code opened pos hi => ?_, fun data hdata _ => .inl hdata⟩
  cases hi

/-- **Templates are never torn**, in any state of a run, exactly if no request opens, writes or
removes a file that another one has open. -/
theorem always_intact_iff (S : Setting τ) (hdir : Resolved S.dir)
    (files : Dict FPath (List UInt8)) (es : List Event) :
    Always (step S) (Intact S files) (init S files) es ↔
      Steps (step S) Undisturbed (init S files) es := by
  have hstart : Inv S (init S files) := inv_init files
  have hstep : ∀ s e, Inv S s → Inv S (step S s e) := fun _ e hi => hi.step e
  have hone : ∀ s e, Inv S s → Intact S files s →
      (Intact S files (step S s e) ↔ Undisturbed s e) := by
    intro s e hi h
    exact ⟨h.undisturbed hi hdir, fun hun => h.does hi hdir hun (step_does S s e)⟩
  exact always_iff_steps (I := Inv S) hstep hone hstart (intact_init files)

theorem always_intact_iff_created :
    Always (step CleanerRegistry.sample) (Intact CleanerRegistry.sample Dict.empty)
        (init CleanerRegistry.sample Dict.empty) created ↔
      Steps (step CleanerRegistry.sample) Undisturbed (init CleanerRegistry.sample Dict.empty)
        created :=
  always_intact_iff CleanerRegistry.sample (by decide) Dict.empty created

lemma Inv.undisturbed (hi : Inv S s) (hone : s.nextId ≤ 1) (e : Event) : Undisturbed s e := by
  have hzero : ∀ i, s.phase i ≠ .idle → i = 0 := by
    intro i hne
    by_contra hi0
    exact hne (hi.fresh i (by omega))
  cases e with
  | openFile i =>
    intro name code hphase j code' opened pos hj
    have hi0 := hzero i (by rw [hphase]; exact nofun)
    have hj0 := hzero j (by rw [hj]; exact nofun)
    rw [hi0] at hphase
    rw [hj0, hphase] at hj
    cases hj
  | flush i n =>
    rintro name code opened pos hphase - - j hji ⟨code', opened', pos', hj⟩
    have hi0 := hzero i (by rw [hphase]; exact nofun)
    have hj0 := hzero j (by rw [hj]; exact nofun)
    exact absurd (hj0.trans hi0.symm) hji
  | remove i =>
    rintro name hphase j ⟨code, opened, pos, hj⟩
    have hi0 := hzero i (by rw [hphase]; exact nofun)
    have hj0 := hzero j (by rw [hj]; exact nofun)
    rw [hi0] at hphase
    rw [hj0, hphase] at hj
    cases hj
  | request r => trivial
  | close i => trivial
  | handle => trivial

/-! ### The registry behind the requests -/

lemma get?_texts (files : Dict FPath (List UInt8)) (name : String) :
    (texts S files).get? name = (files.get? ⟨S.dir, name⟩).map readText := by
  ext text
  rw [Dict.get?_eq_some_iff, texts, List.mem_filterMap, Option.map_eq_some_iff]
  constructor
  · rintro ⟨⟨path, data⟩, hmem, heq⟩
    split_ifs at heq with hpath
    cases heq
    refine ⟨data, ?_, rfl⟩
    rw [← hpath]
    exact Dict.get?_eq_some_iff.2 hmem
  · rintro ⟨data, hget, rfl⟩
    exact ⟨(⟨S.dir, name⟩, data), Dict.get?_eq_some_iff.1 hget, if_pos rfl⟩

lemma readText_bytes (code : String) :
    readText (bytes code) = String.ofList (newlines code.toList) := by
  have hround := PercentCoding.decode_utf8_append code.toList []
  rw [List.append_nil] at hround
  rw [readText, bytes, hround, PercentCoding.decode, List.append_nil]

variable (S) in
/-- The registry is right about what its queue does not name. -/
def Followed (s : State) : Prop := CleanerRegistry.Inv S ⟨texts S s.files, s.templates, s.queue⟩

lemma content_texts_set (files : Dict FPath (List UInt8)) (name : String) (data : List UInt8) :
    CleanerRegistry.content (texts S (files.set ⟨S.dir, name⟩ data)) =
      CleanerRegistry.content ((texts S files).set name (readText data)) := by
  funext n
  have hpath : (⟨S.dir, n ++ ".py"⟩ : FPath) = ⟨S.dir, name⟩ ↔ n ++ ".py" = name :=
    ⟨fun h => (FPath.mk.inj h).2, fun h => by rw [h]⟩
  rw [CleanerRegistry.content, CleanerRegistry.content, get?_texts, Dict.get?_set, Dict.get?_set,
    get?_texts, apply_ite (Option.map readText), Option.map_some]
  simp only [hpath]

lemma content_texts_erase (files : Dict FPath (List UInt8)) (name : String) :
    CleanerRegistry.content (texts S (files.erase ⟨S.dir, name⟩)) =
      CleanerRegistry.content ((texts S files).erase name) := by
  funext n
  have hpath : (⟨S.dir, n ++ ".py"⟩ : FPath) = ⟨S.dir, name⟩ ↔ n ++ ".py" = name :=
    ⟨fun h => (FPath.mk.inj h).2, fun h => by rw [h]⟩
  rw [CleanerRegistry.content, CleanerRegistry.content, get?_texts, Dict.get?_erase,
    Dict.get?_erase, get?_texts, apply_ite (Option.map readText), Option.map_none]
  simp only [hpath]

lemma Followed.write {s' : State} (h : Followed S s) {e : CleanerRegistry.Event} {name : String}
    (hword : ∀ n, CleanerRegistry.word e n =
      if Scanned n ∧ name = n ++ ".py" then some true else none) (data : List UInt8)
    (hfiles : s'.files = s.files.set ⟨S.dir, name⟩ data) (htemplates : s'.templates = s.templates)
    (hqueue : s'.queue = s.queue ++ [e]) : Followed S s' := by
  have hw := CleanerRegistry.Inv.write h hword (readText data)
  rw [Followed, hfiles, htemplates, hqueue, CleanerRegistry.Inv]
  dsimp only
  rw [content_texts_set]
  exact hw

lemma Followed.delete {s' : State} (h : Followed S s) (name : String)
    (hfiles : s'.files = s.files.erase ⟨S.dir, name⟩) (htemplates : s'.templates = s.templates)
    (hqueue : s'.queue = s.queue ++ [.deleted name]) : Followed S s' := by
  have hw := CleanerRegistry.Inv.delete h name
  rw [Followed, hfiles, htemplates, hqueue, CleanerRegistry.Inv]
  dsimp only
  rw [content_texts_erase]
  exact hw

lemma Followed.does {e : Event} {s' : State} (h : Followed S s) (hi : Inv S s)
    (hintact : Intact S files s) (hdir : Resolved S.dir) (hdoes : Does S s e s') :
    Followed S s' := by
  cases hdoes with
  | skip => exact h
  | request r => exact h
  | @opened i name code hphase =>
    have hpath := hi.path_eq hdir (hi.opening hphase)
    by_cases hfile : (s.files.get? ⟨S.dir, name ++ ".py"⟩).isSome = true
    · refine h.write (e := .modified (name ++ ".py")) (fun _ => rfl) [] ?_ rfl ?_
      · rw [openFile, hpath]
      · rw [openFile, hpath, if_pos hfile, notice, if_pos rfl]
    · refine h.write (e := .created (name ++ ".py")) (fun _ => rfl) [] ?_ rfl ?_
      · rw [openFile, hpath]
      · rw [openFile, hpath, if_neg hfile, notice, if_pos rfl]
  | @flushed i n name code opened pos hphase hchunk =>
    -- the descriptor still leads to the file, so the watcher sees the change
    have hpath := hi.path_eq hdir (hi.writing hphase).1
    have hopened := ((hintact name).written i code opened pos hphase).1
    refine h.write (e := .modified (name ++ ".py")) (fun _ => rfl)
      (writeAt 0 ((s.files.get? ⟨S.dir, name ++ ".py"⟩).getD []) pos
        (((bytes code).drop pos).take n)) ?_ rfl ?_
    · rw [flush, hpath, if_pos hopened]
    · rw [flush, hpath, notice, if_pos rfl]
  | closed hphase hpos => exact h
  | @removed i name hphase =>
    rw [remove, templatePath_eq hdir (hi.removing hphase)]
    split_ifs with hfile
    · refine h.delete (name ++ ".py") rfl rfl ?_
      rw [notice, if_pos rfl]
    · exact h
  | handled hqueue => exact CleanerRegistry.Inv.handle h hqueue

/-- `get_path`. -/
def getPath (s : State) (name : String) : Option FPath :=
  match s.templates.get? name with
  | some info => if info.valid then some info.path else none
  | none => none

variable (S) in
/-- The whole text of a request for the template, or of its file at the start. -/
def WholeText (files : Dict FPath (List UInt8)) (s : State) (name text : String) : Prop :=
  (∃ data, files.get? ⟨S.dir, name ++ ".py"⟩ = some data ∧ text = readText data) ∨
    ∃ code, (name, code) ∈ s.accepted ∧ text = String.ofList (newlines code.toList)

variable (S) in
/-- Where the queue is empty, the registry offers of the templates that none writes just those whose
files have a `clean_data`, and what they have is a whole text. -/
def Offered (files : Dict FPath (List UInt8)) (s : State) : Prop :=
  s.queue = [] → ∀ name, (∀ i, ¬ Writes s i name) → ∀ path, getPath s name = some path ↔
    Scanned name ∧ path = ⟨S.dir, name ++ ".py"⟩ ∧ ∃ text, WholeText S files s name text ∧
      (s.files.get? path).map readText = some text ∧
      (analyzeTemplate S.parse (some text)).2 = true

lemma valid_entry (name text : String) :
    (CleanerRegistry.entry S name text).valid = (analyzeTemplate S.parse (some text)).2 ∧
      (CleanerRegistry.entry S name text).path = ⟨S.dir, name ++ ".py"⟩ := by
  rw [CleanerRegistry.entry, CleanerRegistry.refresh]
  dsimp only
  split_ifs with h
  · exact ⟨h.symm, rfl⟩
  · exact ⟨(Bool.eq_false_iff.2 h).symm, rfl⟩

lemma IntactAt.wholeText {name : String} (h : IntactAt S files s name) {data : List UInt8}
    (hdata : s.files.get? ⟨S.dir, name ++ ".py"⟩ = some data) (hnone : ∀ i, ¬ Writes s i name) :
    WholeText S files s name (readText data) := by
  rcases h.whole data hdata hnone with hstart | ⟨code, hmem, rfl⟩
  · exact .inl ⟨data, hstart, rfl⟩
  · exact .inr ⟨code, hmem, readText_bytes code⟩

lemma Followed.offered (h : Followed S s) (hintact : Intact S files s) : Offered S files s := by
  intro hqueue name hnone path
  rw [Followed, hqueue] at h
  have hview := Notify.Current.view_eq h name
  dsimp only at hview
  rw [getPath, hview, CleanerRegistry.content, get?_texts]
  by_cases hscan : Scanned name
  · rw [if_pos hscan]
    cases hdata : s.files.get? ⟨S.dir, name ++ ".py"⟩ with
    | none =>
      constructor
      · intro hget
        cases hget
      · rintro ⟨-, rfl, text, -, htext, -⟩
        rw [hdata] at htext
        cases htext
    | some data =>
      obtain ⟨hvalid, hentry⟩ := valid_entry (S := S) name (readText data)
      simp only [Option.map_some, hvalid, hentry]
      constructor
      · intro hget
        split_ifs at hget with hfunc
        cases hget
        rw [hdata]
        exact ⟨hscan, rfl, readText data, (hintact name).wholeText hdata hnone, rfl, hfunc⟩
      · rintro ⟨-, rfl, text, -, htext, hfunc⟩
        rw [hdata, Option.map_some, Option.some_inj] at htext
        rw [← htext] at hfunc
        rw [if_pos hfunc]
  · rw [if_neg hscan]
    constructor
    · intro hget
      cases hget
    · intro h
      exact absurd h.1 hscan

/-- **What the registry offers is whole**: in a run in which no request disturbs another, whenever
the registry has caught up. -/
theorem always_offered (S : Setting τ) (hdir : Resolved S.dir) (files : Dict FPath (List UInt8))
    (hfiles : files.get? ⟨S.dir, ".py"⟩ = none) (es : List Event)
    (hes : Steps (step S) Undisturbed (init S files) es) :
    Always (step S) (Offered S files) (init S files) es := by
  have hfiles' : (texts S files).get? ".py" = none := by
    rw [get?_texts, hfiles]
    rfl
  have hstart : Inv S (init S files) ∧ Intact S files (init S files) ∧ Followed S (init S files) :=
    ⟨inv_init files, intact_init files, CleanerRegistry.inv_init hfiles'⟩
  have h : Always (step S) (fun s => Inv S s ∧ Intact S files s ∧ Followed S s) (init S files)
      es := by
    refine always_of_inv (I := fun s => Inv S s ∧ Intact S files s ∧ Followed S s)
      (fun s e hs hun => ?_) hstart hes
    obtain ⟨hi, hintact, hfollowed⟩ := hs
    have hdoes := step_does S s e
    exact ⟨hi.step e, hintact.does hi hdir hun hdoes, hfollowed.does hi hintact hdir hdoes⟩
  exact h.mono fun s hs => hs.2.2.offered hs.2.1

theorem always_offered_created :
    Always (step CleanerRegistry.sample) (Offered CleanerRegistry.sample Dict.empty)
      (init CleanerRegistry.sample Dict.empty) created := by
  have hone : Steps (step CleanerRegistry.sample) (fun s _ => s.nextId ≤ 1)
      (init CleanerRegistry.sample Dict.empty) created := by decide +kernel
  have hes : Steps (step CleanerRegistry.sample) Undisturbed
      (init CleanerRegistry.sample Dict.empty) created :=
    steps_of_inv (fun _ e hi _ => hi.step e) (fun _ e hi hle => hi.undisturbed hle e)
      (inv_init Dict.empty) hone
  exact always_offered CleanerRegistry.sample (by decide) Dict.empty rfl created hes

end Tdcs.TemplateApi
