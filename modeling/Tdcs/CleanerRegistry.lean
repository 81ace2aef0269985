import Tdcs.CleanerTemplate
import Tdcs.FileSelection
import Tdcs.Lib.Dict
import Tdcs.Lib.Notify

/-!
`cleaner_registry.py`: the registry of the templates in a directory, kept by the events of the
directory.

The handlers run behind the changes. Each reads the file as it is by then, which may be another
text than the event was about, or none: a template that is registered and no longer there waits for
the event that takes it out.
-/

namespace Tdcs.CleanerRegistry

open Tdcs.Lib Tdcs.CleanerTemplate Tdcs.FileSelection

variable {τ : Type*}

/-- The names that are not scanned. -/
def exclude : List String := ["__init__", "__pycache__", "conftest", "setup"]

/-- The stem and the suffix of a path's last part, as `PurePath` has them: the last dot splits it,
unless it is the first or the last character. -/
def splitSuffix (name : String) : String × String :=
  let cs := name.toList
  let i := cs.length - 1 - (cs.reverse.takeWhile (· ≠ '.')).length
  if '.' ∈ cs ∧ 0 < i ∧ i < cs.length - 1 then
    (String.ofList (cs.take i), String.ofList (cs.drop i))
  else (name, "")

/-- `path.stem`. -/
def stem (path : FPath) : String := (splitSuffix path.name).1

/-- `path.suffix`. -/
def pathSuffix (path : FPath) : String := (splitSuffix path.name).2

structure TemplateInfo where
  name : String
  path : FPath
  description : String
  valid : Bool
  error : String
  deriving DecidableEq

/-- The texts of the files of the directory, under their names. -/
abbrev Files := Dict String String

abbrev Templates := Dict String TemplateInfo

/-- The templates directory, `ast.parse`, and the text of what `stat` raises for a name that is not
there. -/
structure Setting (τ : Type*) where
  dir : String
  parse : Parse τ
  missing : String → String

variable (S : Setting τ)

/-- What `_refresh` makes of the text it reads. -/
def refresh (name : String) (path : FPath) (text : String) : TemplateInfo :=
  let (description, hasFunc) := analyzeTemplate S.parse (some text)
  if hasFunc then { name, path, description, valid := true, error := "" }
  else { name, path, description, valid := false, error := "未找到 def clean_data(df) 函数" }

/-- `TemplateInfo(name, path)`. -/
def templateInfo (files : Files) (name : String) (path : FPath) : TemplateInfo :=
  match files.get? path.name with
  | none => { name, path, description := "", valid := false, error := S.missing path.name }
  | some text => refresh S name path text

/-- `_register`. -/
def register (files : Files) (templates : Templates) (name : String) (path : FPath) : Templates :=
  templates.set name (templateInfo S files name path)

/-- One turn of the loop in `_scan`. -/
def scanFile (files : Files) (templates : Templates) (name : String) : Templates :=
  let path : FPath := ⟨S.dir, name⟩
  if stem path ∈ exclude then templates else register S files templates (stem path) path

/-- `sorted(self._dir.glob("*.py"))`. -/
def pyFiles (files : Files) : List String :=
  (files.keys.filter fun name => endsWith name ".py").mergeSort fun a b => decide (a ≤ b)

/-- `_scan` of an empty registry. -/
def scan (files : Files) : Templates := (pyFiles files).foldl (scanFile S files) Dict.empty

/-- `_on_file_event`. -/
def onFileEvent (files : Files) (templates : Templates) (path : FPath) : Templates :=
  if pathSuffix path ≠ ".py" then templates
  else if stem path ∈ exclude then templates
  else register S files templates (stem path) path

/-- `_on_file_deleted`. -/
def onFileDeleted (templates : Templates) (path : FPath) : Templates :=
  if pathSuffix path ≠ ".py" then templates
  else if (templates.get? (stem path)).isSome then templates.erase (stem path)
  else templates

/-! ### The directory and its events -/

/-- An event about regular files of the directory, by their names. -/
inductive Event
  | created (src : String)
  | modified (src : String)
  | deleted (src : String)
  | moved (src dest : String)

/-- `_Handler`. -/
def handler (files : Files) (templates : Templates) : Event → Templates
  | .created src | .modified src => onFileEvent S files templates ⟨S.dir, src⟩
  | .deleted src => onFileDeleted templates ⟨S.dir, src⟩
  | .moved src dest =>
    onFileEvent S files (onFileDeleted templates ⟨S.dir, src⟩) ⟨S.dir, dest⟩

structure World where
  files : Files
  templates : Templates
  /-- The events no handler has run for yet. -/
  queue : List Event

/-- What may happen: a change of the directory, or the handlers run for the next event. -/
inductive Action
  | create (name text : String)
  | modify (name text : String)
  | delete (name : String)
  /-- A rename replaces the file that has the new name. -/
  | rename (src dest : String)
  | handle

/-- The names an action gives to a file. -/
def Action.names : Action → List String
  | .create name _ | .modify name _ => [name]
  | .rename _ dest => [dest]
  | _ => []

/-- A change puts its event into the queue; one that is impossible changes nothing. -/
def step (w : World) : Action → World
  | .create name text =>
    if (w.files.get? name).isSome then w
    else { w with files := w.files.set name text, queue := w.queue ++ [.created name] }
  | .modify name text =>
    if (w.files.get? name).isSome then
      { w with files := w.files.set name text, queue := w.queue ++ [.modified name] }
    else w
  | .delete name =>
    if (w.files.get? name).isSome then
      { w with files := w.files.erase name, queue := w.queue ++ [.deleted name] }
    else w
  | .rename src dest =>
    match w.files.get? src with
    | none => w
    | some text =>
      if src = dest then w
      else { w with files := (w.files.erase src).set dest text,
                    queue := w.queue ++ [.moved src dest] }
  | .handle =>
    match w.queue with
    | [] => w
    | e :: queue => { w with templates := handler S w.files w.templates e, queue }

/-- `CleanerRegistry.__init__` over the files of the directory. -/
def init (files : Files) : World := { files, templates := scan S files, queue := [] }

def run (w : World) (actions : List Action) : World := actions.foldl (step S) w

/-! ### Names -/

/-- A template has this name: its file ends with `.py`, and is scanned. -/
def Scanned (s : String) : Prop := s ≠ "" ∧ s ∉ exclude

instance (s : String) : Decidable (Scanned s) := inferInstanceAs (Decidable (_ ∧ _))

lemma append_py_inj {s t : String} (h : s ++ ".py" = t ++ ".py") : s = t := by
  have hlist := congrArg String.toList h
  rw [String.toList_append, String.toList_append] at hlist
  exact String.toList_inj.1 (List.append_cancel_right hlist)

lemma splitSuffix_append {s : String} (hs : s ≠ "") : splitSuffix (s ++ ".py") = (s, ".py") := by
  have hcs : (s ++ ".py").toList = s.toList ++ '.' :: ['p', 'y'] := by
    rw [String.toList_append]
    rfl
  have hpos : 0 < s.toList.length := by
    rw [List.length_pos_iff]
    intro h
    exact hs (String.toList_inj.1 h)
  have hlen : (s.toList ++ '.' :: ['p', 'y']).length - 1 - ['p', 'y'].length = s.toList.length := by
    simp only [List.length_append, List.length_cons, List.length_nil]
    omega
  have hcond : '.' ∈ s.toList ++ '.' :: ['p', 'y'] ∧ 0 < s.toList.length ∧
      s.toList.length < (s.toList ++ '.' :: ['p', 'y']).length - 1 := by
    refine ⟨by simp, hpos, ?_⟩
    simp only [List.length_append, List.length_cons, List.length_nil]
    omega
  simp only [splitSuffix]
  rw [hcs, takeWhile_reverse_append (by decide), hlen, if_pos hcond, List.take_left,
    List.drop_left, String.ofList_toList]

lemma eq_of_suffix {name : String} (h : (splitSuffix name).2 = ".py") :
    (splitSuffix name).1 ≠ "" ∧ name = (splitSuffix name).1 ++ ".py" := by
  simp only [splitSuffix] at h ⊢
  split_ifs at h ⊢ with hcond
  · refine ⟨?_, ?_⟩
    · intro hnil
      have hlist := congrArg String.toList hnil
      have hlength := congrArg List.length hlist
      rw [String.toList_ofList, List.length_take] at hlength
      simp only [String.toList_empty, List.length_nil] at hlength
      omega
    · rw [← h, ← String.ofList_append, List.take_append_drop, String.ofList_toList]
  · exact absurd (show "" = ".py" from h) (by decide)

lemma suffix_eq_iff {dir name : String} :
    pathSuffix ⟨dir, name⟩ = ".py" ↔ ∃ s, s ≠ "" ∧ name = s ++ ".py" := by
  constructor
  · intro h
    exact ⟨_, eq_of_suffix h⟩
  · rintro ⟨s, hs, rfl⟩
    rw [pathSuffix, splitSuffix_append hs]

lemma stem_append {dir s : String} (hs : s ≠ "") : stem ⟨dir, s ++ ".py"⟩ = s := by
  rw [stem, splitSuffix_append hs]

/-! ### What the handlers do to a name -/

variable {S}

lemma get?_onFileEvent (files : Files) (templates : Templates) (src s : String) :
    (onFileEvent S files templates ⟨S.dir, src⟩).get? s =
      if Scanned s ∧ src = s ++ ".py" then some (templateInfo S files s ⟨S.dir, src⟩)
      else templates.get? s := by
  rw [onFileEvent]
  by_cases hsuffix : pathSuffix ⟨S.dir, src⟩ = ".py"
  · rw [if_neg (not_not.2 hsuffix)]
    obtain ⟨t, ht, rfl⟩ := suffix_eq_iff.1 hsuffix
    rw [stem_append ht]
    by_cases hex : t ∈ exclude
    · rw [if_pos hex, if_neg]
      rintro ⟨hs, heq⟩
      exact hs.2 (append_py_inj heq ▸ hex)
    · rw [if_neg hex, register]
      by_cases hst : s = t
      · subst hst
        rw [Dict.get?_set_self, if_pos ⟨⟨ht, hex⟩, rfl⟩]
      · rw [Dict.get?_set_of_ne _ _ hst, if_neg]
        rintro ⟨-, heq⟩
        exact hst (append_py_inj heq).symm
  · rw [if_pos hsuffix, if_neg]
    rintro ⟨hs, rfl⟩
    exact hsuffix (suffix_eq_iff.2 ⟨s, hs.1, rfl⟩)

lemma get?_onFileDeleted (templates : Templates) (dir src s : String) :
    (onFileDeleted templates ⟨dir, src⟩).get? s =
      if s ≠ "" ∧ src = s ++ ".py" then none else templates.get? s := by
  rw [onFileDeleted]
  by_cases hsuffix : pathSuffix ⟨dir, src⟩ = ".py"
  · rw [if_neg (not_not.2 hsuffix)]
    obtain ⟨t, ht, rfl⟩ := suffix_eq_iff.1 hsuffix
    rw [stem_append ht]
    by_cases hst : s = t
    · subst hst
      have hcond : s ≠ "" ∧ s ++ ".py" = s ++ ".py" := ⟨ht, rfl⟩
      rw [if_pos hcond]
      cases hget : templates.get? s with
      | none => exact hget
      | some info => exact Dict.get?_erase_self _ _
    · have hcond : ¬ (s ≠ "" ∧ t ++ ".py" = s ++ ".py") := fun h => hst (append_py_inj h.2).symm
      rw [if_neg hcond]
      split_ifs with hin
      · exact Dict.get?_erase_of_ne _ hst
      · rfl
  · rw [if_pos hsuffix, if_neg]
    rintro ⟨hs, rfl⟩
    exact hsuffix (suffix_eq_iff.2 ⟨s, hs, rfl⟩)

/-! ### The registry beside the queue -/

/-- What an event says of the file of a template. -/
def word : Event → String → Option Bool
  | .created src, s | .modified src, s =>
    if Scanned s ∧ src = s ++ ".py" then some true else none
  | .deleted src, s => if s ≠ "" ∧ src = s ++ ".py" then some false else none
  | .moved src dest, s =>
    if Scanned s ∧ dest = s ++ ".py" then some true
    else if s ≠ "" ∧ src = s ++ ".py" then some false else none

/-- The text of the file of a template. -/
def content (files : Files) (s : String) : Option String :=
  if Scanned s then files.get? (s ++ ".py") else none

variable (S) in
/-- What a scan registers for it. -/
def entry (s : String) (text : String) : TemplateInfo := refresh S s ⟨S.dir, s ++ ".py"⟩ text

lemma templateInfo_of_content {files : Files} {s text : String}
    (h : content files s = some text) :
    templateInfo S files s ⟨S.dir, s ++ ".py"⟩ = entry S s text := by
  rw [content] at h
  split_ifs at h
  rw [templateInfo, h, entry]

variable (S) in
/-- The queue is right about the files, and the registry about what the queue does not name. -/
def Inv (w : World) : Prop :=
  Notify.Current word (content w.files) (entry S) (fun s => w.templates.get? s) w.queue

lemma content_set_self {files : Files} {s : String} (hs : Scanned s) (text : String) :
    content (files.set (s ++ ".py") text) s = some text := by
  rw [content, if_pos hs, Dict.get?_set_self]

lemma content_set_of_ne {files : Files} {name s : String}
    (h : ¬ (Scanned s ∧ name = s ++ ".py")) (text : String) :
    content (files.set name text) s = content files s := by
  rw [content, content]
  split_ifs with hs
  · exact Dict.get?_set_of_ne _ _ fun heq => h ⟨hs, heq.symm⟩
  · rfl

lemma content_erase_self {files : Files} {s : String} :
    content (files.erase (s ++ ".py")) s = none := by
  rw [content]
  split_ifs
  · exact Dict.get?_erase_self _ _
  · rfl

lemma content_erase_of_ne {files : Files} {name s : String}
    (h : ¬ (s ≠ "" ∧ name = s ++ ".py")) : content (files.erase name) s = content files s := by
  rw [content, content]
  split_ifs with hs
  · exact Dict.get?_erase_of_ne _ fun heq => h ⟨hs.1, heq.symm⟩
  · rfl

variable {w : World}

lemma Inv.write (hi : Inv S w) {e : Event} {name : String}
    (hword : ∀ s, word e s = if Scanned s ∧ name = s ++ ".py" then some true else none)
    (text : String) :
    Inv S { w with files := w.files.set name text, queue := w.queue ++ [e] } := by
  refine Notify.Current.happens hi fun s => ?_
  rw [hword]
  split_ifs with hname
  · obtain ⟨hscan, rfl⟩ := hname
    exact .inr (.inl ⟨rfl, by rw [content_set_self hscan]; rfl⟩)
  · exact .inl ⟨rfl, content_set_of_ne hname text⟩

lemma Inv.delete (hi : Inv S w) (name : String) :
    Inv S { w with files := w.files.erase name, queue := w.queue ++ [.deleted name] } := by
  refine Notify.Current.happens hi fun s => ?_
  rw [word]
  split_ifs with hname
  · obtain ⟨-, rfl⟩ := hname
    exact .inr (.inr ⟨rfl, content_erase_self⟩)
  · exact .inl ⟨rfl, content_erase_of_ne hname⟩

lemma Inv.rename (hi : Inv S w) (src dest text : String) :
    Inv S { w with files := (w.files.erase src).set dest text,
                   queue := w.queue ++ [.moved src dest] } := by
  refine Notify.Current.happens hi fun s => ?_
  rw [word]
  split_ifs with hdest hsrc
  · obtain ⟨hscan, rfl⟩ := hdest
    exact .inr (.inl ⟨rfl, by rw [content_set_self hscan]; rfl⟩)
  · refine .inr (.inr ⟨rfl, ?_⟩)
    rw [content_set_of_ne hdest, hsrc.2]
    exact content_erase_self
  · refine .inl ⟨rfl, ?_⟩
    rw [content_set_of_ne hdest, content_erase_of_ne hsrc]

/-- The handlers of an event leave the templates it does not name, and renew those it does. -/
lemma Inv.handle (hi : Inv S w) {e : Event} {queue : List Event} (hqueue : w.queue = e :: queue) :
    Inv S { w with templates := handler S w.files w.templates e, queue } := by
  have hi' : Notify.Current word (content w.files) (entry S) (fun s => w.templates.get? s)
      (e :: queue) := hqueue ▸ hi
  -- a file that the event says is there is read
  have hread : ∀ (templates : Templates) (src s : String), Scanned s ∧ src = s ++ ".py" →
      ∀ text, content w.files s = some text →
        (onFileEvent S w.files templates ⟨S.dir, src⟩).get? s = some (entry S s text) := by
    rintro templates src s hsrc text htext
    rw [get?_onFileEvent, if_pos hsrc, hsrc.2, templateInfo_of_content htext]
  have hskip : ∀ (templates : Templates) (src s : String), ¬ (Scanned s ∧ src = s ++ ".py") →
      (onFileEvent S w.files templates ⟨S.dir, src⟩).get? s = templates.get? s := by
    intro templates src s hsrc
    rw [get?_onFileEvent, if_neg hsrc]
  refine hi'.handled fun s => ?_
  cases e with
  | created src | modified src =>
    rw [word]
    split_ifs with hsrc
    · exact .inr (.inl ⟨rfl, hread _ _ _ hsrc⟩)
    · exact .inl ⟨rfl, hskip _ _ _ hsrc⟩
  | deleted src =>
    dsimp only [handler]
    rw [word, get?_onFileDeleted]
    split_ifs with hsrc
    · exact .inr (.inr ⟨rfl, rfl⟩)
    · exact .inl ⟨rfl, rfl⟩
  | moved src dest =>
    dsimp only [handler]
    rw [word]
    split_ifs with hdest hsrc
    · exact .inr (.inl ⟨rfl, hread _ _ _ hdest⟩)
    · refine .inr (.inr ⟨rfl, ?_⟩)
      rw [hskip _ _ _ hdest, get?_onFileDeleted, if_pos hsrc]
    · refine .inl ⟨rfl, ?_⟩
      rw [hskip _ _ _ hdest, get?_onFileDeleted, if_neg hsrc]

lemma Inv.step (hi : Inv S w) (a : Action) : Inv S (step S w a) := by
  cases a with
  | create name text =>
    rw [CleanerRegistry.step]
    split_ifs
    · exact hi
    · exact hi.write (fun _ => rfl) text
  | modify name text =>
    rw [CleanerRegistry.step]
    split_ifs
    · exact hi.write (fun _ => rfl) text
    · exact hi
  | delete name =>
    rw [CleanerRegistry.step]
    split_ifs
    · exact hi.delete name
    · exact hi
  | rename src dest =>
    rw [CleanerRegistry.step]
    cases w.files.get? src with
    | none => exact hi
    | some text =>
      dsimp only
      split_ifs
      · exact hi
      · exact hi.rename src dest text
  | handle =>
    rw [CleanerRegistry.step]
    cases hqueue : w.queue with
    | nil => exact hi
    | cons e queue => exact hi.handle hqueue

/-! ### The scan -/

lemma get?_foldl_scanFile (files : Files) {names : List String}
    (hnames : ∀ name ∈ names, pathSuffix ⟨S.dir, name⟩ = ".py") (templates : Templates)
    (s : String) :
    (names.foldl (scanFile S files) templates).get? s =
      if Scanned s ∧ s ++ ".py" ∈ names then
        some (templateInfo S files s ⟨S.dir, s ++ ".py"⟩)
      else templates.get? s := by
  induction names generalizing templates with
  | nil => simp
  | cons name names ih =>
    rw [List.forall_mem_cons] at hnames
    -- for these names a turn of the loop is the handler of an event
    have hturn : scanFile S files templates name = onFileEvent S files templates ⟨S.dir, name⟩ := by
      rw [onFileEvent, if_neg (not_not.2 hnames.1)]
      rfl
    rw [List.foldl_cons, ih hnames.2, hturn, get?_onFileEvent]
    by_cases hrest : Scanned s ∧ s ++ ".py" ∈ names
    · rw [if_pos hrest, if_pos ⟨hrest.1, List.mem_cons_of_mem _ hrest.2⟩]
    · rw [if_neg hrest]
      by_cases hname : Scanned s ∧ name = s ++ ".py"
      · rw [if_pos hname, if_pos ⟨hname.1, List.mem_cons.2 (.inl hname.2.symm)⟩, hname.2]
      · rw [if_neg hname, if_neg]
        rintro ⟨hscan, hmem⟩
        rcases List.mem_cons.1 hmem with heq | hmem
        · exact hname ⟨hscan, heq.symm⟩
        · exact hrest ⟨hscan, hmem⟩

lemma mem_pyFiles {files : Files} {name : String} :
    name ∈ pyFiles files ↔ (∃ text, files.get? name = some text) ∧ endsWith name ".py" = true := by
  rw [pyFiles, List.mem_mergeSort, List.mem_filter]
  refine and_congr_left fun _ => ?_
  constructor
  · intro hname
    obtain ⟨p, hp, rfl⟩ := List.mem_map.1 hname
    exact ⟨p.2, Dict.get?_eq_some_iff.2 hp⟩
  · rintro ⟨text, htext⟩
    exact List.mem_map_of_mem (f := Prod.fst) (Dict.get?_eq_some_iff.1 htext)

lemma suffix_of_mem_pyFiles {files : Files} (hfiles : files.get? ".py" = none) {name : String}
    (hname : name ∈ pyFiles files) (dir : String) : pathSuffix ⟨dir, name⟩ = ".py" := by
  obtain ⟨⟨text, htext⟩, hend⟩ := mem_pyFiles.1 hname
  obtain ⟨l, hl⟩ := endsWith_iff.1 hend
  have hname' : name = String.ofList l ++ ".py" := by
    rw [← String.toList_inj, String.toList_append, String.toList_ofList, hl]
  refine suffix_eq_iff.2 ⟨String.ofList l, ?_, hname'⟩
  intro hnil
  rw [hnil, String.empty_append] at hname'
  rw [hname', hfiles] at htext
  cases htext

lemma get?_scan {files : Files} (hfiles : files.get? ".py" = none) (s : String) :
    (scan S files).get? s = (content files s).map (entry S s) := by
  rw [scan, get?_foldl_scanFile files fun name hname => suffix_of_mem_pyFiles hfiles hname S.dir]
  have hend : endsWith (s ++ ".py") ".py" = true := by
    rw [endsWith_iff, String.toList_append]
    exact List.suffix_append _ _
  cases hcontent : content files s with
  | none =>
    rw [if_neg]
    · rfl
    · rintro ⟨hscan, hmem⟩
      obtain ⟨text, htext⟩ := (mem_pyFiles.1 hmem).1
      rw [content, if_pos hscan, htext] at hcontent
      cases hcontent
  | some text =>
    have hboth : Scanned s ∧ files.get? (s ++ ".py") = some text := by
      rw [content] at hcontent
      split_ifs at hcontent with hscan
      exact ⟨hscan, hcontent⟩
    rw [if_pos ⟨hboth.1, mem_pyFiles.2 ⟨⟨text, hboth.2⟩, hend⟩⟩, templateInfo_of_content hcontent]
    rfl

/-! ### Runs -/

lemma get?_py_step (h : w.files.get? ".py" = none) {a : Action} (ha : ".py" ∉ a.names) :
    (step S w a).files.get? ".py" = none := by
  cases a with
  | create name text =>
    have hne : ".py" ≠ name := fun he => ha (by simp [Action.names, he])
    rw [step]
    split_ifs
    · exact h
    · exact (Dict.get?_set_of_ne _ _ hne).trans h
  | modify name text =>
    have hne : ".py" ≠ name := fun he => ha (by simp [Action.names, he])
    rw [step]
    split_ifs
    · exact (Dict.get?_set_of_ne _ _ hne).trans h
    · exact h
  | delete name =>
    rw [step]
    split_ifs
    · exact (Dict.get?_erase _ _ _).trans (by rw [h, ite_self])
    · exact h
  | rename src dest =>
    -- a rename makes the file only as its destination
    have hne : ".py" ≠ dest := fun he => ha (by simp [Action.names, he])
    rw [step]
    cases w.files.get? src with
    | none => exact h
    | some text =>
      dsimp only
      split_ifs
      · exact h
      · refine (Dict.get?_set_of_ne _ _ hne).trans ?_
        rw [Dict.get?_erase, h, ite_self]
  | handle =>
    rw [step]
    cases w.queue with
    | nil => exact h
    | cons e queue => exact h

lemma get?_py_run {actions : List Action} (h : w.files.get? ".py" = none)
    (hactions : ∀ a ∈ actions, ".py" ∉ a.names) : (run S w actions).files.get? ".py" = none := by
  induction actions generalizing w with
  | nil => exact h
  | cons a actions ih =>
    rw [List.forall_mem_cons] at hactions
    exact ih (get?_py_step h hactions.1) hactions.2

lemma inv_init {files : Files} (hfiles : files.get? ".py" = none) : Inv S (init S files) := by
  refine ⟨fun s _ => get?_scan hfiles s, fun s hs => ?_, fun s hs => ?_⟩
  · cases hs
  · cases hs

lemma Inv.run (hi : Inv S w) (actions : List Action) : Inv S (run S w actions) := by
  induction actions generalizing w with
  | nil => exact hi
  | cons a actions ih => exact ih (hi.step a)

/-- **Events and a scan agree**: whatever has happened to the files, and however late the handlers
ran, once they have run for all events the registry has what a scan of the directory finds. -/
theorem run_eq_scan (S : Setting τ) (files : Files) (actions : List Action)
    (hfiles : files.get? ".py" = none) (hactions : ∀ a ∈ actions, ".py" ∉ a.names)
    (hqueue : (run S (init S files) actions).queue = []) (name : String) :
    (run S (init S files) actions).templates.get? name =
      (scan S (run S (init S files) actions).files).get? name := by
  have hi : Inv S (CleanerRegistry.run S (init S files) actions) := (inv_init hfiles).run actions
  rw [Inv, hqueue] at hi
  rw [hi.view_eq name, get?_scan (get?_py_run hfiles hactions)]

/-- `ast.parse` on the texts of the run below. -/
def parseSample (code : String) : Except String (Module String) :=
  if code = "def clean_data(df): return df" then
    .ok { docstring := none, body := [.functionDef false "clean_data" "" [.expr "df"]] }
  else .error "invalid syntax"

def sample : Setting String where
  dir := "clean_templates"
  parse := parseSample
  missing := fun _ => "[Errno 2] No such file or directory"

/-- A file is written, and renamed onto another before the handlers run; a third one has gone when
they read it. -/
def late : List Action := [
  .create "trim.tmp" "def clean_data(df): return df", .rename "trim.tmp" "trim.py",
  .create "gone.py" "def", .delete "gone.py", .handle, .handle, .handle, .handle]

def trimOnly : Files := Dict.empty.set "trim.py" "def"

theorem run_eq_scan_late :
    (run sample (init sample trimOnly) late).templates.get? "trim" =
      (scan sample (run sample (init sample trimOnly) late).files).get? "trim" :=
  run_eq_scan sample trimOnly late (by decide) (by decide) (by decide) "trim"

end Tdcs.CleanerRegistry
