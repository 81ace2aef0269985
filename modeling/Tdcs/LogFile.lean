import Tdcs.Lib.Json
import Tdcs.Lib.Run

/-!
`logging_config.py` and `trace.py`: the log file of the service.

A record is one JSON object on one line, and carries the trace of the thread that writes it. The
handler sets the file aside before a line that would fill it, and keeps a number of old files.
-/

namespace Tdcs.LogFile

open Tdcs.Lib Tdcs.Lib.Run Tdcs.Lib.Json

/-- `ContextVar`: what `new_trace` has set last in a thread. -/
structure Context where
  traceId : String := ""
  taskId : String := ""

/-- A `LogRecord`, its time as `formatTime` writes it. -/
structure LogRecord where
  time : String
  levelno : ℕ
  levelname : String
  name : String
  message : String
  exc : Option String

/-- A record, and the context it is written in. -/
structure Entry where
  record : LogRecord
  context : Context

variable {F : Type*} (fmt : FloatFormat F)

/-- The object `JsonFormatter.format` writes. -/
def Entry.value (e : Entry) : Value F :=
  .obj ([("ts", .str e.record.time), ("level", .str e.record.levelname),
    ("logger", .str e.record.name), ("msg", .str e.record.message),
    ("trace_id", .str e.context.traceId), ("task_id", .str e.context.taskId)] ++
    (e.record.exc.map fun exc => ("exc", .str exc)).toList)

/-- `JsonFormatter.format`, and the end of the line. -/
def Entry.line (e : Entry) : List Char := print fmt false e.value ++ ['\n']

/-- `maxBytes` and `backupCount` of the `RotatingFileHandler`. -/
def maxBytes : ℕ := 10 * 1024 * 1024

def backupCount : ℕ := 5

/-- The bytes of a text in UTF-8. -/
def bytes : List Char → ℕ
  | [] => 0
  | c :: text => c.utf8Size + bytes text

structure State where
  /-- The context of each thread. -/
  contexts : ℕ → Context := fun _ => {}
  /-- `etl.log`. -/
  current : List Char := []
  /-- `etl.log.1`, `etl.log.2` and so on. -/
  backups : List (List Char) := []

inductive Event
  /-- `new_trace`, with what it draws. -/
  | newTrace (thread : ℕ) (taskId traceId : String)
  | log (thread : ℕ) (record : LogRecord)

/-- `shouldRollover`; an empty file is never set aside. -/
def State.full (s : State) (line : List Char) : Bool :=
  !s.current.isEmpty && decide (maxBytes ≤ bytes s.current + line.length)

/-- `doRollover`. -/
def State.rollover (s : State) : State :=
  { s with current := [], backups := (s.current :: s.backups).take backupCount }

/-- `emit`. -/
def State.emit (s : State) (line : List Char) : State :=
  let s := if s.full line then s.rollover else s
  { s with current := s.current ++ line }

/-- The contexts of the threads after an event. -/
def follow (contexts : ℕ → Context) : Event → ℕ → Context
  | .newTrace thread taskId traceId => Function.update contexts thread ⟨traceId, taskId⟩
  | .log _ _ => contexts

variable (level : ℕ)

/-- What is written, at the level of the root logger and of the handler. -/
def written (contexts : ℕ → Context) : Event → Option Entry
  | .newTrace _ _ _ => none
  | .log thread record =>
    if record.levelno < level then none else some ⟨record, contexts thread⟩

/-- Everything a run writes. -/
def log : (ℕ → Context) → List Event → List Entry
  | _, [] => []
  | contexts, e :: es => (written level contexts e).toList ++ log (follow contexts e) es

def step (s : State) (e : Event) : State :=
  let s' := match written level s.contexts e with
    | none => s
    | some entry => s.emit (entry.line fmt)
  { s' with contexts := follow s.contexts e }

/-- The files from the oldest on. -/
def State.files (s : State) : List (List Char) := (s.current :: s.backups).reverse

/-- The lines of the files, as a reader of the log takes them. -/
def State.read (s : State) : List (Option (Value F)) :=
  ((s.files.flatten.splitOn '\n').dropLast).map (parse fmt)

variable {fmt level} {s : State} {entries : List Entry}

/-! ### Lines -/

lemma notMem_print (v : Value F) : '\n' ∉ print fmt false v :=
  (printable_print fmt false v).notMem (by decide)

lemma splitOn_flatMap_line (entries : List Entry) :
    (entries.flatMap (Entry.line fmt)).splitOn '\n' =
      entries.map (fun e => print fmt false e.value) ++ [[]] := by
  induction entries with
  | nil => rfl
  | cons e entries ih =>
    rw [List.flatMap_cons, Entry.line, List.append_assoc, List.singleton_append,
      List.splitOn_append_cons_self_of_not_mem (notMem_print _), ih, List.map_cons,
      List.cons_append]

lemma distinct_value (e : Entry) : Distinct (e.value (F := F)) := by
  rcases he : e.record.exc with _ | exc <;> simp [Entry.value, he, Distinct, DistinctMembers]

lemma read_flatMap_line (entries : List Entry) :
    (((entries.flatMap (Entry.line fmt)).splitOn '\n').dropLast).map (parse fmt) =
      entries.map fun e => some e.value := by
  rw [splitOn_flatMap_line, List.dropLast_concat, List.map_map]
  apply List.map_congr_left
  intro e _
  exact parse_print fmt false _ (distinct_value e)

/-! ### The files -/

variable (fmt) in
/-- The files hold the last of the entries, in order; where some are gone, there are as many old
files as are kept, each set aside before a line that would have filled it. -/
structure Holds (s : State) (entries : List Entry) (dropped : List Entry)
    (old : List (List Entry)) (new : List Entry) : Prop where
  all : entries = dropped ++ (new :: old).reverse.flatten
  current : s.current = new.flatMap (Entry.line fmt)
  backups : s.backups = old.map (List.flatMap (Entry.line fmt))
  kept : dropped ≠ [] → old.length = backupCount
  filled : ∀ file ∈ s.backups, ∃ e ∈ entries, maxBytes ≤ bytes file + (e.line fmt).length

lemma Holds.emit {dropped : List Entry} {old : List (List Entry)} {new : List Entry}
    (h : Holds fmt s entries dropped old new) (e : Entry) :
    ∃ dropped old new, Holds fmt (s.emit (e.line fmt)) (entries ++ [e]) dropped old new := by
  have hfilled : ∀ file ∈ s.backups, ∃ e' ∈ entries ++ [e],
      maxBytes ≤ bytes file + (e'.line fmt).length := by
    intro file hfile
    obtain ⟨e', he', hle⟩ := h.filled file hfile
    exact ⟨e', List.mem_append_left _ he', hle⟩
  unfold State.emit
  rcases hfull : s.full (e.line fmt) with _ | _
  · refine ⟨dropped, old, new ++ [e], ?_, ?_, h.backups, h.kept, hfilled⟩
    · rw [h.all]
      simp
    · have hcur : s.current ++ e.line fmt = (new ++ [e]).flatMap (Entry.line fmt) := by
        simp [h.current]
      exact hcur
  · -- the file is set aside, and the oldest one may go
    have hsplit := List.take_append_drop backupCount (new :: old)
    refine ⟨dropped ++ ((new :: old).drop backupCount).reverse.flatten,
      (new :: old).take backupCount, [e], ?_, ?_, ?_, ?_, ?_⟩
    · have hall : (new :: old).reverse.flatten =
          ((new :: old).drop backupCount).reverse.flatten ++
            ((new :: old).take backupCount).reverse.flatten := by
        conv_lhs => rw [← hsplit]
        rw [List.reverse_append, List.flatten_append]
      rw [h.all, hall]
      simp
    · have hcur : [] ++ e.line fmt = [e].flatMap (Entry.line fmt) := by simp
      exact hcur
    · have hback : (s.current :: s.backups).take backupCount =
          ((new :: old).take backupCount).map (List.flatMap (Entry.line fmt)) := by
        rw [List.map_take, List.map_cons, h.current, h.backups]
      exact hback
    · intro hne
      rw [List.length_take, List.length_cons]
      by_cases hd : dropped = []
      · have hlong : backupCount < (new :: old).length := by
          by_contra hshort
          rw [List.drop_eq_nil_of_le (not_lt.mp hshort), hd] at hne
          exact hne rfl
        rw [List.length_cons] at hlong
        omega
      · have hkept := h.kept hd
        omega
    · intro file hfile
      rcases List.mem_cons.mp (List.mem_of_mem_take hfile) with rfl | hmem
      · refine ⟨e, by simp, ?_⟩
        unfold State.full at hfull
        simp only [Bool.and_eq_true, decide_eq_true_eq] at hfull
        exact hfull.2
      · exact hfilled file hmem

variable (fmt) in
/-- The files hold the last of the entries. -/
def HoldsLast (s : State) (entries : List Entry) : Prop :=
  ∃ dropped old new, Holds fmt s entries dropped old new

lemma holdsLast_init : HoldsLast fmt {} [] :=
  ⟨[], [], [], rfl, rfl, rfl, fun h => absurd rfl h, fun _ h => by cases h⟩

lemma HoldsLast.step (h : HoldsLast fmt s entries) (e : Event) :
    HoldsLast fmt (step fmt level s e) (entries ++ (written level s.contexts e).toList) := by
  obtain ⟨dropped, old, new, h⟩ := h
  unfold LogFile.step
  rcases written level s.contexts e with _ | entry
  · rw [Option.toList_none, List.append_nil]
    exact ⟨dropped, old, new, h.all, h.current, h.backups, h.kept, h.filled⟩
  · obtain ⟨dropped, old, new, h⟩ := h.emit entry
    exact ⟨dropped, old, new, h.all, h.current, h.backups, h.kept, h.filled⟩

lemma HoldsLast.run (h : HoldsLast fmt s entries) (es : List Event) :
    HoldsLast fmt (es.foldl (LogFile.step fmt level) s) (entries ++ log level s.contexts es) := by
  induction es generalizing s entries with
  | nil =>
    rw [log, List.append_nil]
    exact h
  | cons e es ih =>
    have hstep : HoldsLast fmt (LogFile.step fmt level s e)
        (entries ++ (written level s.contexts e).toList) := h.step e
    have hrun := ih hstep
    rw [List.append_assoc] at hrun
    exact hrun

/-- **The log can be read.** After any run of any threads, the files hold the last of what was
written, an object a line and none cut in two; and something is gone only if there are as many old
files as are kept, each of which the line after it would have filled. -/
theorem read_run (fmt : FloatFormat F) (level : ℕ) (es : List Event) :
    let s := es.foldl (step fmt level) {}
    ∃ dropped kept, log level (fun _ => {}) es = dropped ++ kept ∧
      s.read fmt = kept.map (fun e => some e.value) ∧
      (dropped ≠ [] → s.backups.length = backupCount ∧
        ∀ file ∈ s.backups, ∃ e ∈ log level (fun _ => {}) es,
          maxBytes ≤ bytes file + (e.line fmt).length) := by
  intro s
  have hrun : HoldsLast fmt s (log level (fun _ => {}) es) := holdsLast_init.run es
  obtain ⟨dropped, old, new, h⟩ := hrun
  refine ⟨dropped, (new :: old).reverse.flatten, h.all, ?_, fun hd => ⟨?_, h.filled⟩⟩
  · have hfiles : s.files.flatten = (new :: old).reverse.flatten.flatMap (Entry.line fmt) := by
      have hmap : s.current :: s.backups = (new :: old).map (List.flatMap (Entry.line fmt)) := by
        rw [List.map_cons, ← h.current, ← h.backups]
      unfold State.files
      rw [hmap, ← List.map_reverse, ← List.flatMap_def, ← List.flatMap_id, List.flatMap_assoc]
      rfl
    unfold State.read
    rw [hfiles, read_flatMap_line]
  · rw [h.backups, List.length_map]
    exact h.kept hd

/-! ### The trace of a file -/

variable (level) in
/-- What the thread writes before it begins another trace. -/
def handling (thread : ℕ) : List Event → List LogRecord
  | [] => []
  | .newTrace t _ _ :: es => if t = thread then [] else handling thread es
  | .log t record :: es =>
    if t = thread ∧ level ≤ record.levelno then record :: handling thread es
    else handling thread es

def Event.traceId? : Event → Option String
  | .newTrace _ _ traceId => some traceId
  | .log _ _ => none

variable {contexts : ℕ → Context} {traceId : String} {es : List Event}

lemma log_append (contexts : ℕ → Context) (es es' : List Event) :
    log level contexts (es ++ es') =
      log level contexts es ++ log level (es.foldl follow contexts) es' := by
  induction es generalizing contexts with
  | nil => rfl
  | cons e es ih => rw [List.cons_append, log, ih, log, List.append_assoc, List.foldl_cons]

lemma traceId_follow {e : Event} (he : e.traceId? ≠ some traceId) {t : ℕ}
    (ht : (contexts t).traceId ≠ traceId) : (follow contexts e t).traceId ≠ traceId := by
  cases e with
  | newTrace thread taskId traceId' =>
    by_cases h : t = thread
    · subst h
      simpa [follow, Event.traceId?] using he
    · simpa [follow, h] using ht
  | log thread record => exact ht

lemma traceId_foldl_follow (hes : ∀ e ∈ es, e.traceId? ≠ some traceId)
    (hcontexts : ∀ t, (contexts t).traceId ≠ traceId) (t : ℕ) :
    (es.foldl follow contexts t).traceId ≠ traceId := by
  induction es generalizing contexts with
  | nil => exact hcontexts t
  | cons e es ih =>
    rw [List.forall_mem_cons] at hes
    exact ih hes.2 fun t => traceId_follow hes.1 (hcontexts t)

lemma filter_log_of_ne (hes : ∀ e ∈ es, e.traceId? ≠ some traceId)
    (hcontexts : ∀ t, (contexts t).traceId ≠ traceId) :
    (log level contexts es).filter (fun e => e.context.traceId = traceId) = [] := by
  induction es generalizing contexts with
  | nil => rfl
  | cons e es ih =>
    rw [List.forall_mem_cons] at hes
    rw [log, List.filter_append, ih hes.2 fun t => traceId_follow hes.1 (hcontexts t)]
    rcases hw : written level contexts e with _ | entry
    · rfl
    · cases e with
      | newTrace => cases hw
      | log thread record =>
        simp only [written] at hw
        split_ifs at hw
        obtain rfl := Option.some.inj hw
        simp [hcontexts thread]

/-- Where one thread has the trace, what it writes next is written under it. -/
lemma filter_log {thread : ℕ} (hes : ∀ e ∈ es, e.traceId? ≠ some traceId)
    (hthread : (contexts thread).traceId = traceId)
    (hcontexts : ∀ t, t ≠ thread → (contexts t).traceId ≠ traceId) :
    (log level contexts es).filter (fun e => e.context.traceId = traceId) =
      (handling level thread es).map fun record => ⟨record, contexts thread⟩ := by
  induction es generalizing contexts with
  | nil => rfl
  | cons e es ih =>
    rw [List.forall_mem_cons] at hes
    have hother : ∀ t, t ≠ thread → (follow contexts e t).traceId ≠ traceId := fun t ht =>
      traceId_follow hes.1 (hcontexts t ht)
    rw [log, List.filter_append]
    cases e with
    | newTrace t taskId traceId' =>
      by_cases ht : t = thread
      · -- the trace is over
        subst ht
        have hnone : ∀ u, (follow contexts (.newTrace t taskId traceId') u).traceId ≠ traceId := by
          intro u
          by_cases hu : u = t
          · subst hu
            simpa [follow, Event.traceId?] using hes.1
          · exact hother u hu
        rw [filter_log_of_ne hes.2 hnone, handling, if_pos rfl]
        rfl
      · have hsame : follow contexts (.newTrace t taskId traceId') thread = contexts thread := by
          simp [follow, Ne.symm ht]
        rw [ih hes.2 (by rw [hsame, hthread]) hother, hsame, handling, if_neg ht]
        rfl
    | log t record =>
      have hsame : follow contexts (.log t record) = contexts := rfl
      rw [hsame, ih hes.2 hthread hcontexts]
      by_cases ht : t = thread
      · subst ht
        by_cases hlevel : level ≤ record.levelno
        · simp [written, handling, hlevel, not_lt.mpr hlevel, hthread]
        · simp [written, handling, hlevel, not_le.mp hlevel]
      · have hne := hcontexts t ht
        by_cases hlevel : record.levelno < level
        · simp [written, handling, hlevel, ht]
        · simp [written, handling, hlevel, ht, hne]

/-- **The trace of a file is its handling.** A trace id that is drawn once is on the lines which its
thread writes until it begins the next trace, and on no others, all with the task of the file. -/
theorem filter_log_run (level : ℕ) {es₁ es₂ : List Event} {thread : ℕ} {taskId traceId : String}
    (hne : traceId ≠ "") (h₁ : ∀ e ∈ es₁, e.traceId? ≠ some traceId)
    (h₂ : ∀ e ∈ es₂, e.traceId? ≠ some traceId) :
    (log level (fun _ => {}) (es₁ ++ .newTrace thread taskId traceId :: es₂)).filter
        (fun e => e.context.traceId = traceId) =
      (handling level thread es₂).map fun record => ⟨record, ⟨traceId, taskId⟩⟩ := by
  have hinit : ∀ t : ℕ, ((fun _ => {} : ℕ → Context) t).traceId ≠ traceId := fun _ => hne.symm
  have hbefore := traceId_foldl_follow h₁ hinit
  rw [log_append, List.filter_append, filter_log_of_ne h₁ hinit, List.nil_append, log]
  have hsame : follow (es₁.foldl follow fun _ => {}) (.newTrace thread taskId traceId) thread =
      ⟨traceId, taskId⟩ := Function.update_self _ _ _
  have hother : ∀ t, t ≠ thread →
      (follow (es₁.foldl follow fun _ => {}) (.newTrace thread taskId traceId) t).traceId ≠
        traceId := by
    intro t ht
    have heq : follow (es₁.foldl follow fun _ => {}) (.newTrace thread taskId traceId) t =
        es₁.foldl follow (fun _ => {}) t := Function.update_of_ne ht _ _
    rw [heq]
    exact hbefore t
  rw [← hsame]
  exact filter_log h₂ (by rw [hsame]) hother

def info (message : String) : LogRecord :=
  ⟨"2026-01-05T08:00:00", 20, "INFO", "src.core.file_processor", message, none⟩

/-- Two workers write in turn. -/
theorem filter_log_inTurn :
    (log 20 (fun _ => {}) ([.newTrace 2 "stock" "b7"] ++ .newTrace 1 "orders" "a4" ::
      [.log 2 (info "loading"), .log 1 (info "claimed"), .newTrace 1 "orders" "c9",
        .log 1 (info "claimed")])).filter (fun e => e.context.traceId = "a4") =
      [⟨info "claimed", ⟨"a4", "orders"⟩⟩] :=
  filter_log_run 20 (by decide) (by simp [Event.traceId?]) (by simp [Event.traceId?])

end Tdcs.LogFile
