import Tdcs.ConfigApi
import Tdcs.ConfigAgreement

/-!
A task request changes everything it says, or nothing.

Where the new file does not load, the old document is written back; but it is written by
YAML, not as it was, and the placeholders lose quotes that their values need. The rollback
restores the file exactly when the document, written so, loads as the old text did.
-/

namespace Tdcs.ConfigAtomic

open Tdcs.Lib Tdcs.ConfigValidator Tdcs.Config Tdcs.ConfigManager Tdcs.ConfigApi

variable (O : Outside)

/-- The list of tasks of a file; empty, where it has none. -/
def fileTasks (content : Text) : List Val :=
  match (O.safeLoad content).bind Val.asMap with
  | some doc => (tasksOf doc).iter.getD []
  | none => []

def isTask (taskId : String) (v : Val) : Bool := v.asMap.any (hasId taskId)

def dataOf (body : Option Val) : Doc := (bodyOf body).asMap.getD []

/-- The new list is the old one with the one task added, replaced or left out. -/
def Requested (old new : List Val) : Request → Prop
  | .create body => new = old ++ [.map (buildTaskDict (dataOf body))]
  | .update taskId body => ∃ before t updated after,
      old = before ++ .map t :: after ∧ hasId taskId t = true ∧
      mergeTaskUpdate t (dataOf body) = some updated ∧ new = before ++ .map updated :: after
  | .delete taskId => ∃ before t after,
      old = before ++ t :: after ∧ isTask taskId t = true ∧ new = before ++ after

/-- After an error the file loads as before and the running configuration is the old one;
after a success the running one is what the file gives, with the change that was asked for. -/
structure Atomic (req : Request) (s : State) : Prop where
  restores : (req.run O s).1.isOk = false →
    loadConfig O (req.run O s).2.file = loadConfig O s.file ∧
      (req.run O s).2.config = s.config
  installs : (req.run O s).1.isOk = true →
    loadConfig O (req.run O s).2.file = some (req.run O s).2.config ∧
      Requested (fileTasks O s.file) (fileTasks O (req.run O s).2.file) req

/-- The documents YAML writes on behalf of the request. -/
def Written (req : Request) (content : Text) (v : Val) : Prop :=
  readConfigYaml O content = some v ∨ ∃ old, req.edit O content = .ok (v, old)

def RoundTrips (v : Val) : Prop := O.safeLoad (O.safeDump v) = some v

/-- An id that is deleted occurs once. -/
def DeletesOne (tasks : List Val) : Request → Prop
  | .delete taskId => (tasks.filter (isTask taskId)).length = 1
  | _ => True

/-- If the request gets so far as to write the file, the new file loads (and a deleted id
occurs once); or the old document, as YAML writes it, loads as the old text does, and gives
the running configuration if it loads. -/
def Recovers (req : Request) (s : State) : Prop :=
  ∀ new old, req.edit O s.file = .ok (new, old) →
    validateConfig O.pydantic O.py new = some [] →
    if (loadConfig O (O.safeDump new)).isSome then DeletesOne (fileTasks O s.file) req
    else loadConfig O (O.safeDump old) = loadConfig O s.file ∧
      ∀ config, loadConfig O s.file = some config → config = s.config

variable {O}

/-! ### Saving -/

/-- **What saving can do**: nothing, install the new file, or put the old document back. -/
theorem saveAndReload_cases (new old : Val) (s : State) :
    (validateConfig O.pydantic O.py new ≠ some [] ∧
      ∃ e, saveAndReload O new old s = (.error e, s)) ∨
    (validateConfig O.pydantic O.py new = some [] ∧
      ∃ config, loadConfig O (O.safeDump new) = some config ∧
        saveAndReload O new old s = (.ok (), ⟨O.safeDump new, config⟩)) ∨
    (validateConfig O.pydantic O.py new = some [] ∧ loadConfig O (O.safeDump new) = none ∧
      ∃ e, saveAndReload O new old s =
        (.error e, ⟨O.safeDump old, (loadConfig O (O.safeDump old)).getD s.config⟩)) := by
  rcases hv : validateConfig O.pydantic O.py new with _ | _ | ⟨e, errors⟩
  · exact .inl ⟨by simp, _, by rw [saveAndReload, hv]; rfl⟩
  · have hrun : saveAndReload O new old s = ((reload O).handle fun e =>
        (((writeConfigYaml O old).andThen fun _ => reload O).handle fun rollbackError =>
          Prog.raise (.other "RuntimeError" ("配置重载失败，且回滚失败: " ++ rollbackError.str)))
        |>.andThen fun _ => Prog.raise e) ⟨O.safeDump new, s.config⟩ := by
      rw [saveAndReload, hv]
      rfl
    right
    cases hnew : loadConfig O (O.safeDump new) with
    | some config =>
      refine .inl ⟨rfl, config, rfl, ?_⟩
      rw [hrun, Prog.handle, reload_of_some hnew]
    | none =>
      refine .inr ⟨rfl, rfl, ?_⟩
      cases hold : loadConfig O (O.safeDump old) with
      | some config =>
        refine ⟨O.loadError (O.safeDump new), ?_⟩
        rw [hrun, Prog.handle, reload_of_none hnew]
        simp [Prog.andThen, Prog.handle, Prog.update, Prog.raise, writeConfigYaml, reload, hold]
      | none =>
        refine ⟨.other "RuntimeError" ("配置重载失败，且回滚失败: " ++
          (O.loadError (O.safeDump old)).str), ?_⟩
        rw [hrun, Prog.handle, reload_of_none hnew]
        simp [Prog.andThen, Prog.handle, Prog.update, Prog.raise, writeConfigYaml, reload, hold]
  · exact .inl ⟨by simp, _, by rw [saveAndReload, hv]; rfl⟩

lemma atomic_of_ok {req : Request} {s s' : State} {r : Response} (h : req.run O s = (r, s'))
    (hr : r.isOk = true) : Atomic O req s ↔
      loadConfig O s'.file = some s'.config ∧
        Requested (fileTasks O s.file) (fileTasks O s'.file) req := by
  constructor
  · intro hatomic
    have := hatomic.installs
    rw [h] at this
    exact this hr
  · intro hs
    constructor
    · rw [h]
      intro hr'
      rw [hr] at hr'
      cases hr'
    · rw [h]
      exact fun _ => hs

lemma atomic_of_error {req : Request} {s s' : State} {r : Response} (h : req.run O s = (r, s'))
    (hr : r.isOk = false) : Atomic O req s ↔
      loadConfig O s'.file = loadConfig O s.file ∧ s'.config = s.config := by
  constructor
  · intro hatomic
    have := hatomic.restores
    rw [h] at this
    exact this hr
  · intro hs
    constructor
    · rw [h]
      exact fun _ => hs
    · rw [h]
      intro hr'
      rw [hr] at hr'
      cases hr'

lemma run_of_error {req : Request} {s s' : State} {new old : Val} {e : Exc}
    (he : req.edit O s.file = .ok (new, old)) (hs : saveAndReload O new old s = (.error e, s')) :
    ∃ code message cause status,
      req.run O s = (.error code message cause status, s') := by
  unfold Request.run
  rw [he]
  dsimp only
  rw [hs]
  dsimp only
  split_ifs <;> exact ⟨_, _, _, _, rfl⟩

/-! ### The edits -/

lemma lookup_put (key : String) (v : Val) (d : Doc) :
    (Dict.put key v d).lookup key = some v := by
  induction d with
  | nil => simp [Dict.put]
  | cons p d ih =>
    obtain ⟨k, w⟩ := p
    by_cases h : k = key
    · simp [Dict.put, h]
    · rw [Dict.put, if_neg h, List.lookup_cons, beq_false_of_ne (Ne.symm h)]
      exact ih

lemma tasksOf_put (v : Val) (d : Doc) : tasksOf (Dict.put "tasks" v d) = v := by
  simp [tasksOf, ConfigApi.get, lookup_put]

lemma mapAll_asMap {l : List Val} {ts : List Doc} (h : mapAll Val.asMap l = some ts) :
    l = ts.map .map := by
  induction l generalizing ts with
  | nil =>
    cases h
    rfl
  | cons v l ih =>
    obtain ⟨t, ts, ht, hts, rfl⟩ := mapAll_cons_eq_some.mp h
    rw [List.map_cons, Val.asMap_eq_some.mp ht, ← ih hts]

lemma filterTasks_eq_some {keep : Doc → Bool} {l r : List Val}
    (h : filterTasks keep l = some r) :
    ∃ ts : List Doc, l = ts.map .map ∧ r = (ts.filter keep).map .map := by
  obtain ⟨ts, hts, rfl⟩ := Option.map_eq_some_iff.mp h
  exact ⟨ts, mapAll_asMap hts, rfl⟩

/-- The early responses are errors, and `Q` holds of what is returned. -/
def Meets {α : Type} (x : Except Response α) (Q : α → Prop) : Prop :=
  match x with
  | .ok a => Q a
  | .error r => r.isOk = false

lemma Meets.bind {α β : Type} {x : Except Response α} {f : α → Except Response β} {Q : α → Prop}
    {R : β → Prop} (h : Meets x Q) (hf : ∀ a, Q a → Meets (f a) R) : Meets (x >>= f) R := by
  cases x with
  | ok a => exact hf a h
  | error r => exact h

lemma Meets.mono {α : Type} {x : Except Response α} {Q R : α → Prop} (h : Meets x Q)
    (hQR : ∀ a, Q a → R a) : Meets x R := by
  cases x with
  | ok a => exact hQR a h
  | error r => exact h

lemma createEdit_meets (data : Doc) (taskId : String) (cfg : Doc) :
    Meets (createEdit data taskId cfg) fun new =>
      ∃ l, tasksOf cfg = .list l ∧ tasksOf new = .list (l ++ [.map (buildTaskDict data)]) := by
  unfold createEdit
  cases hi : (tasksOf cfg).iter with
  | none => rfl
  | some tasks =>
    cases hf : filterTasks (hasId taskId) tasks with
    | none =>
      simp only [hf]
      rfl
    | some existing =>
      simp only [hf]
      split_ifs
      · rfl
      · split
        · next l hl => exact ⟨l, hl, tasksOf_put _ _⟩
        · rfl

lemma findTask_some {taskId : String} {l : List Val} {i : ℕ} {t : Doc}
    (h : findTask taskId l = some (some (i, t))) :
    ∃ before after, l = before ++ .map t :: after ∧ before.length = i ∧ hasId taskId t = true := by
  induction l generalizing i with
  | nil => simp [findTask] at h
  | cons v l ih =>
    simp only [findTask, Option.bind_eq_some_iff] at h
    obtain ⟨m, hm, h⟩ := h
    cases Val.asMap_eq_some.mp hm
    split_ifs at h with hid
    · -- the head is it
      cases h
      exact ⟨[], l, rfl, rfl, hid⟩
    · -- it comes later
      obtain ⟨r, hr, hrt⟩ := Option.map_eq_some_iff.mp h
      obtain ⟨p, rfl, hp⟩ := Option.map_eq_some_iff.mp hrt
      obtain ⟨j, t'⟩ := p
      cases hp
      obtain ⟨before, after, rfl, hlen, hid'⟩ := ih hr
      exact ⟨.map m :: before, after, rfl, by simp [hlen], hid'⟩

lemma list_of_mem_map {v : Val} {l : List Val} {t : Doc} (h : v.iter = some l)
    (ht : .map t ∈ l) : v = .list l := by
  cases v <;> simp [Val.iter] at h
  · subst h
    simp at ht
  · rw [h]
  · subst h
    simp at ht

lemma updateEdit_meets (data : Doc) (taskId : String) (cfg : Doc) :
    Meets (updateEdit data taskId cfg) fun new =>
      ∃ before t updated after, tasksOf cfg = .list (before ++ .map t :: after) ∧
        hasId taskId t = true ∧ mergeTaskUpdate t data = some updated ∧
        tasksOf new = .list (before ++ .map updated :: after) := by
  unfold updateEdit
  cases hi : (tasksOf cfg).iter with
  | none => rfl
  | some tasks =>
    dsimp only
    split
    · rfl
    · rfl
    · next i t hfind =>
      obtain ⟨before, after, rfl, rfl, hid⟩ := findTask_some hfind
      split
      · rfl
      · next updated hup =>
        refine ⟨before, t, updated, after, list_of_mem_map (t := t) hi (by simp), hid, hup, ?_⟩
        rw [tasksOf_put]
        simp

lemma deleteEdit_meets (taskId : String) (cfg : Doc) :
    Meets (deleteEdit taskId cfg) fun new =>
      ∃ ts : List Doc, (tasksOf cfg).iter = some (ts.map .map) ∧
        tasksOf new = .list ((ts.filter fun t => !hasId taskId t).map .map) := by
  unfold deleteEdit
  split_ifs
  · rfl
  split
  · rfl
  · next tasks hi =>
    split
    · rfl
    · next newTasks hf =>
      split_ifs
      · rfl
      · obtain ⟨ts, rfl, rfl⟩ := filterTasks_eq_some hf
        exact ⟨ts, hi, tasksOf_put _ _⟩

lemma filter_not_eq_erase_iff {α : Type*} (q : α → Bool) (l : List α) :
    (∃ before x after, l = before ++ x :: after ∧ q x = true ∧
      l.filter (fun x => !q x) = before ++ after) ↔ (l.filter q).length = 1 := by
  constructor
  · rintro ⟨before, x, after, hl, -, hf⟩
    have hlen := congrArg List.length hf
    have hsplit := List.length_eq_length_filter_add (l := l) q
    rw [hl] at hlen hsplit ⊢
    simp only [List.length_append, List.length_cons] at hlen hsplit
    omega
  · intro h
    induction l with
    | nil => simp at h
    | cons a l ih =>
      cases ha : q a with
      | true =>
        have hnil : l.filter q = [] := by
          rw [List.filter_cons_of_pos ha, List.length_cons] at h
          exact List.length_eq_zero_iff.mp (by omega)
        refine ⟨[], a, l, rfl, ha, ?_⟩
        rw [List.filter_cons_of_neg (by simp [ha]), List.nil_append, List.filter_eq_self]
        intro x hx
        have := List.filter_eq_nil_iff.mp hnil x hx
        simpa using this
      | false =>
        rw [List.filter_cons_of_neg (by simp [ha])] at h
        obtain ⟨before, x, after, rfl, hx, hf⟩ := ih h
        refine ⟨a :: before, x, after, rfl, hx, ?_⟩
        rw [List.filter_cons_of_pos (by simp [ha]), hf, List.cons_append]

lemma validated_data {v : Val} {taskId : Option String} {data : Doc}
    (h : validateTaskRequest v taskId = .ok data) : v.asMap.getD [] = data := by
  unfold validateTaskRequest at h
  split at h
  · dsimp only at h
    split_ifs at h
    all_goals
      cases h
      rfl
  · cases h

lemma change_meets (req : Request) : Meets req.change fun change => ∀ cfg,
    Meets (change cfg) fun new =>
      (Requested ((tasksOf cfg).iter.getD []) ((tasksOf new).iter.getD []) req ↔
        DeletesOne ((tasksOf cfg).iter.getD []) req) := by
  cases req with
  | create body =>
    unfold Request.change
    dsimp only
    split
    · rfl
    · next data hdata =>
      intro cfg
      refine (createEdit_meets data (createdId data) cfg).mono ?_
      rintro new ⟨l, hl, hnew⟩
      have hd : dataOf body = data := validated_data hdata
      simp [Requested, DeletesOne, hl, hnew, hd, Val.iter]
  | update taskId body =>
    unfold Request.change
    dsimp only
    split
    · rfl
    · next data hdata =>
      split
      · split_ifs
        · intro cfg
          refine (updateEdit_meets data taskId cfg).mono ?_
          rintro new ⟨before, t, updated, after, hl, hid, hup, hnew⟩
          have hd : dataOf body = data := validated_data hdata
          have hreq : Requested ((tasksOf cfg).iter.getD []) ((tasksOf new).iter.getD [])
              (.update taskId body) :=
            ⟨before, t, updated, after, by rw [hl]; rfl, hid, hd ▸ hup, by rw [hnew]; rfl⟩
          exact iff_of_true hreq trivial
        · rfl
      · rfl
  | delete taskId =>
    intro cfg
    refine (deleteEdit_meets taskId cfg).mono ?_
    rintro new ⟨ts, hi, hnew⟩
    have hfilter : (ts.filter fun t => !hasId taskId t).map Val.map =
        (ts.map Val.map).filter fun v => !isTask taskId v := by
      rw [List.filter_map]
      rfl
    -- the code filters, so it deletes every task of the id: one only if there is one
    rw [hi, hnew, hfilter]
    exact filter_not_eq_erase_iff (isTask taskId) (ts.map .map)

lemma edit_meets (req : Request) (content : Text) : Meets (req.edit O content) fun p =>
    ∃ cfg newDoc, p.1 = .map newDoc ∧ readConfigYaml O content = some (.map cfg) ∧
      O.safeLoad (O.safeDump (.map cfg)) = some p.2 ∧
      (Requested ((tasksOf cfg).iter.getD []) ((tasksOf newDoc).iter.getD []) req ↔
        DeletesOne ((tasksOf cfg).iter.getD []) req) := by
  unfold Request.edit
  refine (change_meets req).bind fun change hchange => ?_
  cases hcfg : readConfigYaml O content with
  | none => rfl
  | some cfg =>
    cases hold : O.safeLoad (O.safeDump cfg) with
    | none => simp [hold, Meets, Response.isOk]
    | some oldCfg =>
      cases hdoc : cfg.asMap with
      | none => simp [hold, hdoc, Meets, Response.isOk]
      | some doc =>
        cases Val.asMap_eq_some.mp hdoc
        simp only [hold, Val.asMap_map]
        exact (hchange doc).bind fun new hnew => ⟨doc, new, rfl, rfl, hold, hnew⟩

lemma fileTasks_of_read {content : Text} {cfg : Doc}
    (h : readConfigYaml O content = some (.map cfg)) :
    fileTasks O content = (tasksOf cfg).iter.getD [] := by
  obtain ⟨v, hv, hcfg⟩ := Option.map_eq_some_iff.mp h
  split_ifs at hcfg with ht
  · -- the document is a dictionary
    subst hcfg
    simp [fileTasks, hv]
  · -- it is empty, and so are the lists
    cases hcfg
    cases v with
    | map m =>
      have hm : m = [] := by simpa [Val.truthy] using ht
      simp [fileTasks, hv, hm]
    | _ => simp [fileTasks, hv, Val.asMap, tasksOf, ConfigApi.get, Val.iter]

/-! ### The whole request -/

/-- What `Recovers` asks of a request that has a new document to write. -/
lemma recovers_iff_of_edit {req : Request} {s : State} {new old : Val}
    (hedit : req.edit O s.file = .ok (new, old)) :
    Recovers O req s ↔ (validateConfig O.pydantic O.py new = some [] →
      if (loadConfig O (O.safeDump new)).isSome then DeletesOne (fileTasks O s.file) req
      else loadConfig O (O.safeDump old) = loadConfig O s.file ∧
        ∀ config, loadConfig O s.file = some config → config = s.config) := by
  constructor
  · exact fun h => h _ _ hedit
  · intro h new' old' h'
    cases hedit.symm.trans h'
    exact h

/-- **A request is atomic exactly when its rollback recovers the old file**, or is not needed. -/
theorem atomic_iff (req : Request) (s : State)
    (hY : ∀ v, Written O req s.file v → RoundTrips O v) :
    Atomic O req s ↔ Recovers O req s := by
  cases hedit : req.edit O s.file with
  | error r =>
    -- nothing is written
    have hrec : Recovers O req s := by
      intro new old h
      rw [hedit] at h
      cases h
    refine iff_of_true ?_ hrec
    have hrun : req.run O s = (r, s) := by rw [Request.run, hedit]
    have hr := edit_meets (O := O) req s.file
    rw [hedit] at hr
    exact (atomic_of_error hrun hr).mpr ⟨rfl, rfl⟩
  | ok p =>
    obtain ⟨new, old⟩ := p
    have hmeets := edit_meets (O := O) req s.file
    rw [hedit] at hmeets
    obtain ⟨cfg, newDoc, rfl, hcfg, hold, hnew⟩ := hmeets
    have hold' : old = .map cfg := by
      have := hY _ (.inl hcfg)
      exact Option.some.inj (hold.symm.trans this)
    subst hold'
    rw [recovers_iff_of_edit hedit]
    rcases saveAndReload_cases (.map newDoc) (.map cfg) s with
      ⟨hv, e, hs⟩ | ⟨hv, config, hload, hs⟩ | ⟨hv, hload, e, hs⟩
    · -- the new document is invalid
      obtain ⟨code, message, cause, status, hrun⟩ := run_of_error hedit hs
      rw [atomic_of_error hrun rfl]
      exact iff_of_true ⟨rfl, rfl⟩ fun h => absurd h hv
    · -- the new file is installed
      have hrun : req.run O s = (req.okResponse, ⟨O.safeDump (.map newDoc), config⟩) := by
        rw [Request.run, hedit]
        dsimp only
        rw [hs]
      have htasks : fileTasks O (O.safeDump (.map newDoc)) = (tasksOf newDoc).iter.getD [] := by
        have := hY _ (.inr ⟨_, hedit⟩)
        unfold RoundTrips at this
        simp [fileTasks, this]
      have hok : req.okResponse.isOk = true := by cases req <;> rfl
      rw [atomic_of_ok hrun hok]
      simp only [hload, hv, if_true, true_and, true_implies, Option.isSome_some]
      rw [htasks, fileTasks_of_read hcfg]
      exact hnew
    · -- the old document is put back
      obtain ⟨code, message, cause, status, hrun⟩ := run_of_error hedit hs
      rw [atomic_of_error hrun rfl]
      simp only [hv, hload, true_implies, Option.isSome_none, Bool.false_eq_true,
        if_false]
      refine and_congr_right fun hsame => ?_
      rw [hsame]
      cases loadConfig O s.file with
      | none => simp
      | some config => simp

lemma not_atomic_of_lost {req : Request} {s : State} {new old : Val}
    (hedit : req.edit O s.file = .ok (new, old))
    (hv : validateConfig O.pydantic O.py new = some [])
    (hnew : loadConfig O (O.safeDump new) = none) (hold : loadConfig O (O.safeDump old) = none)
    (hfile : (loadConfig O s.file).isSome = true) : ¬ Atomic O req s := by
  rcases saveAndReload_cases new old s with ⟨hv', -⟩ | ⟨-, config, hload, -⟩ | ⟨-, -, e, hs⟩
  · exact fun _ => hv' hv
  · rw [hnew] at hload
    cases hload
  · obtain ⟨code, message, cause, status, hrun⟩ := run_of_error hedit hs
    intro h
    have hsame : loadConfig O (O.safeDump old) = loadConfig O s.file :=
      ((atomic_of_error hrun rfl).mp h).1
    rw [← hsame, hold] at hfile
    cases hfile

/-! ### A password that looks like a number -/

def taskText (id : String) : List String := [
  "- task_id: " ++ id,
  "  name: Orders",
  "  monitor:",
  "    folder_path: /in",
  "    file_extensions:",
  "    - .csv",
  "  etl:",
  "    extractor: csv",
  "    transformer_module: m",
  "    transformer_function: f",
  "  table:",
  "    base_table: orders",
  "    partition_field: day",
  "    create_table_template: ''",
  "  error_handling:",
  "    dead_letter_dir: /dead"]

/-- The file with some tasks, as `safe_dump` writes it. -/
def fileText (password : String) (ids : List String) : Text :=
  ([ "service:",
    "  instance_id: tdcs",
    "database:",
    "  master:",
    "    host: db",
    "    user: tdcs",
    "    password: " ++ password,
    "    database: tdcs",
    "web:",
    "  secret_key: 0123456789abcdef",
    "tasks:"] ++ ids.flatMap taskText).flatMap fun line => line.toList ++ ['\n']

def taskDoc (id : String) : Val := .map [
  ("task_id", .str id), ("name", .str "Orders"),
  ("monitor", .map [("folder_path", .str "/in"), ("file_extensions", .list [.str ".csv"])]),
  ("etl", .map [("extractor", .str "csv"), ("transformer_module", .str "m"),
    ("transformer_function", .str "f")]),
  ("table", .map [("base_table", .str "orders"), ("partition_field", .str "day"),
    ("create_table_template", .str "")]),
  ("error_handling", .map [("dead_letter_dir", .str "/dead")])]

def fileDoc (password : Val) (ids : List String) : Doc := [
  ("service", .map [("instance_id", .str "tdcs")]),
  ("database", .map [("master", .map [("host", .str "db"), ("user", .str "tdcs"),
    ("password", password), ("database", .str "tdcs")])]),
  ("web", .map [("secret_key", .str "0123456789abcdef")]),
  ("tasks", .list (ids.map taskDoc))]

def passwordVar : String := "${DB_MASTER_PASSWORD}"

def quoted (s : String) : String := "\"" ++ s ++ "\""

variable (value : String) (plain : Val)

/-- The texts that occur where the password is `value`, and what YAML reads in them; `plain` is
what it reads in the password without quotes. -/
def yamlTable : List (Text × Doc) := [
  (fileText (quoted passwordVar) ["a", "b"], fileDoc (.str passwordVar) ["a", "b"]),
  (fileText passwordVar ["a", "b"], fileDoc (.str passwordVar) ["a", "b"]),
  (fileText passwordVar ["b"], fileDoc (.str passwordVar) ["b"]),
  (fileText (quoted value) ["a", "b"], fileDoc (.str value) ["a", "b"]),
  (fileText value ["a", "b"], fileDoc plain ["a", "b"]),
  (fileText value ["b"], fileDoc plain ["b"])]

def withPassword : Outside where
  pydantic := ConfigAgreement.lax
  py := ConfigAgreement.ascii
  host := ⟨"host", 1⟩
  safeLoad := fun content => ((yamlTable value plain).lookup content).map .map
  safeDump := fun v => fileText passwordVar
    (if ((v.asMap.bind fun doc => (tasksOf doc).iter).getD []).length = 2 then ["a", "b"]
      else ["b"])
  environ := fun var => if var = "DB_MASTER_PASSWORD".toList then some value.toList else none
  isWord := fun c => c.isAlphanum || c = '_'
  repr := fun _ => ""
  loadError := fun _ => .configValidation ""
  validateError := fun _ => .other "AttributeError" ""

def quotedFile : Text := fileText (quoted passwordVar) ["a", "b"]
def plainFile : Text := fileText passwordVar ["a", "b"]
def deletedFile : Text := fileText passwordVar ["b"]

variable {value plain}

lemma lookup_texts :
    (yamlTable value plain).lookup quotedFile = some (fileDoc (.str passwordVar) ["a", "b"]) ∧
    (yamlTable value plain).lookup plainFile = some (fileDoc (.str passwordVar) ["a", "b"]) ∧
    (yamlTable value plain).lookup deletedFile = some (fileDoc (.str passwordVar) ["b"]) := by
  have h1 : (plainFile == quotedFile) = false := by decide +kernel
  have h2 : (deletedFile == quotedFile) = false := by decide +kernel
  have h3 : (deletedFile == plainFile) = false := by decide +kernel
  unfold quotedFile plainFile deletedFile at *
  refine ⟨?_, ?_, ?_⟩
  · rw [yamlTable, List.lookup_cons_self]
  · rw [yamlTable, List.lookup_cons, h1, List.lookup_cons_self]
  · rw [yamlTable, List.lookup_cons, h2, List.lookup_cons, h3, List.lookup_cons_self]

lemma safeLoad_withPassword (content : Text) :
    (withPassword value plain).safeLoad content =
      ((yamlTable value plain).lookup content).map .map := rfl

lemma safeDump_two : (withPassword value plain).safeDump
    (.map (fileDoc (.str passwordVar) ["a", "b"])) = plainFile := rfl

lemma safeDump_one : (withPassword value plain).safeDump
    (.map (fileDoc (.str passwordVar) ["b"])) = deletedFile := rfl

lemma roundTrips_fileDoc :
    RoundTrips (withPassword value plain) (.map (fileDoc (.str passwordVar) ["a", "b"])) ∧
    RoundTrips (withPassword value plain) (.map (fileDoc (.str passwordVar) ["b"])) := by
  unfold RoundTrips
  rw [safeDump_two, safeDump_one, safeLoad_withPassword, safeLoad_withPassword,
    lookup_texts.2.1, lookup_texts.2.2]
  exact ⟨rfl, rfl⟩

lemma read_quotedFile : readConfigYaml (withPassword value plain) quotedFile =
    some (.map (fileDoc (.str passwordVar) ["a", "b"])) := by
  rw [readConfigYaml, safeLoad_withPassword, lookup_texts.1]
  rfl

lemma edit_quotedFile : (Request.delete "a").edit (withPassword value plain) quotedFile =
    .ok (.map (fileDoc (.str passwordVar) ["b"]),
      .map (fileDoc (.str passwordVar) ["a", "b"])) := by
  have hround : RoundTrips (withPassword value plain)
      (.map (fileDoc (.str passwordVar) ["a", "b"])) := roundTrips_fileDoc.1
  unfold RoundTrips at hround
  unfold Request.edit
  rw [read_quotedFile]
  dsimp only [Request.change, bind, Except.bind]
  rw [hround]
  rfl

lemma valid_deleted : validateConfig ConfigAgreement.lax ConfigAgreement.ascii
    (.map (fileDoc (.str passwordVar) ["b"])) = some [] :=
  ConfigAgreement.valid_of_isEmpty (by decide +kernel)

lemma written_quotedFile {v : Val}
    (h : Written (withPassword value plain) (.delete "a") quotedFile v) :
    RoundTrips (withPassword value plain) v := by
  rcases h with h | ⟨old, h⟩
  · rw [read_quotedFile] at h
    cases h
    exact roundTrips_fileDoc.1
  · rw [edit_quotedFile] at h
    cases h
    exact roundTrips_fileDoc.2

/-- A password that is a number without its quotes. -/
def numericPassword : Outside := withPassword "123456" (.int 123456)

lemma loads_numericPassword : (loadConfig numericPassword quotedFile).isSome = true ∧
    (loadConfig numericPassword plainFile).isNone = true ∧
    (loadConfig numericPassword deletedFile).isNone = true := by
  decide +kernel

theorem atomic_iff_quotedFile : ∃ config, loadConfig numericPassword quotedFile = some config ∧
    (Atomic numericPassword (.delete "a") ⟨quotedFile, config⟩ ↔
      Recovers numericPassword (.delete "a") ⟨quotedFile, config⟩) := by
  obtain ⟨config, hconfig⟩ := Option.isSome_iff_exists.mp loads_numericPassword.1
  exact ⟨config, hconfig, atomic_iff (.delete "a") ⟨quotedFile, config⟩
    fun _ => written_quotedFile⟩

/-- The rollback writes the password without its quotes, and the file does not load any more. -/
theorem not_atomic_quotedFile : ¬ ∀ (O : Outside) (req : Request) (s : State),
    (∀ v, Written O req s.file v → RoundTrips O v) → Atomic O req s := by
  intro hall
  obtain ⟨config, hconfig⟩ := Option.isSome_iff_exists.mp loads_numericPassword.1
  have hatomic : Atomic numericPassword (.delete "a") ⟨quotedFile, config⟩ := by
    apply hall
    intro v hv
    exact written_quotedFile hv
  refine not_atomic_of_lost (s := ⟨quotedFile, config⟩) edit_quotedFile valid_deleted ?_ ?_
    loads_numericPassword.1 hatomic
  · rw [safeDump_one]
    exact Option.isNone_iff_eq_none.mp loads_numericPassword.2.2
  · rw [safeDump_two]
    exact Option.isNone_iff_eq_none.mp loads_numericPassword.2.1

end Tdcs.ConfigAtomic
