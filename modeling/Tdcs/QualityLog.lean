import Mathlib.Tactic
import Tdcs.PipelineResult
import Tdcs.Lib.Transaction
import Tdcs.Lib.Upsert

/-!
The table `data_quality_log`: what `QualityReporter.save` leaves in it, and the trend that is
read from it.

The upsert of `save` updates where a unique key conflicts, and the migration declares none, so
every save that is carried out appends a row.
-/

namespace Tdcs.QualityLog

open Tdcs.Lib.Transaction Tdcs.Lib.Upsert

/-- A `QualityReport` as `save` reads it. -/
structure Report extends QualityReport where
  nullRate : ℚ
  qualityScore : ℚ
  deriving DecidableEq

structure Row extends Report where
  id : ℕ
  taskId : String
  fileId : Option ℤ
  filePath : Option String
  batchTime : ℕ
  processingTimeMs : ℕ
  deriving DecidableEq

inductive Column
  | id | taskId | fileId | filePath | batchTime | totalRows | validRows | errorRows | nullRate
  | qualityScore | processingTimeMs
  deriving DecidableEq

inductive Value
  | int (n : ℤ)
  | text (s : String)
  | decimal (q : ℚ)
  deriving DecidableEq

/-- The value of a column, `none` for `NULL`. -/
def Row.get (r : Row) : Column → Option Value
  | .id => some (.int r.id)
  | .taskId => some (.text r.taskId)
  | .fileId => r.fileId.map .int
  | .filePath => r.filePath.map .text
  | .batchTime => some (.int r.batchTime)
  | .totalRows => some (.int r.totalRows)
  | .validRows => some (.int r.validRows)
  | .errorRows => some (.int r.errorRows)
  | .nullRate => some (.decimal r.nullRate)
  | .qualityScore => some (.decimal r.qualityScore)
  | .processingTimeMs => some (.int r.processingTimeMs)

/-- What `create_table` is given besides columns. -/
inductive TableItem
  | primaryKeyConstraint (columns : List Column)
  | uniqueConstraint (columns : List Column)
  | index (name : String) (columns : List Column)

def TableItem.uniqueKey : TableItem → Option (List Column)
  | .primaryKeyConstraint columns | .uniqueConstraint columns => some columns
  | .index _ _ => none

def uniqueKeys (items : List TableItem) : List (Row → Option (List Value)) :=
  (items.filterMap TableItem.uniqueKey).map fun columns r => columns.mapM r.get

/-- The items of `data_quality_log` in the migration; no column of it is declared a key. -/
def dataQualityLog : List TableItem := [.index "idx_task_time" [.taskId, .batchTime]]

/-- The arguments of `save`. -/
structure Call where
  taskId : String
  fileId : Option ℤ
  filePath : String
  report : Report
  elapsedMs : ℕ

/-- A call of `save` with what the server adds to it. -/
structure Event where
  call : Call
  id : ℕ
  batchTime : ℕ
  outcome : Outcome

inductive Result | skipped | saved | raised
  deriving DecidableEq

/-- The row of `VALUES`. -/
def Event.row (e : Event) : Row where
  toReport := e.call.report
  id := e.id
  taskId := e.call.taskId
  fileId := e.call.fileId
  filePath := some e.call.filePath
  batchTime := e.batchTime
  processingTimeMs := e.call.elapsedMs

/-- The assignments of `ON DUPLICATE KEY UPDATE`. -/
def onDuplicate (old new : Row) : Row :=
  { old with
    totalRows := new.totalRows
    validRows := new.validRows
    errorRows := new.errorRows
    nullRate := new.nullRate
    qualityScore := new.qualityScore
    processingTimeMs := new.processingTimeMs }

def save (items : List TableItem) (e : Event) (t : List Row) : Result × List Row :=
  match e.call.fileId with
  | none => (.skipped, t)
  | some fileId =>
    if fileId ≤ 0 then (.skipped, t)
    else
      let t' := upsert (uniqueKeys items) onDuplicate t e.row
      match e.outcome with
      | .done => (.saved, t')
      | .raised applied => (.raised, if applied then t' else t)

/-- The table after a sequence of saves. -/
def saveAll (items : List TableItem) (t : List Row) (l : List Event) : List Row :=
  l.foldl (fun t e => (save items e t).2) t

/-- The server's part of a query: how it compares texts, and the date of a time. -/
structure Server where
  sameText : String → String → Bool
  date : ℕ → ℕ

structure TrendDay where
  day : ℕ
  batchCount : ℕ
  totalRows : ℕ
  errorRows : ℕ
  deriving DecidableEq

/-- The rows of the `WHERE` clause. -/
def window (s : Server) (now : ℕ) (days : ℤ) (taskId : String) (t : List Row) : List Row :=
  t.filter fun r => s.sameText r.taskId taskId &&
    decide ((now : ℤ) - 86400 * min 90 (max 1 days) ≤ r.batchTime)

def ofDay (s : Server) (day : ℕ) (t : List Row) : List Row :=
  t.filter fun r => s.date r.batchTime == day

def getQualityTrend (s : Server) (now : ℕ) (days : ℤ) (taskId : String) (t : List Row) :
    List TrendDay :=
  let rows := window s now days taskId t
  (((rows.map fun r => s.date r.batchTime).dedup).insertionSort (· ≤ ·)).map fun day =>
    { day
      batchCount := (ofDay s day rows).length
      totalRows := ((ofDay s day rows).map (·.totalRows)).sum
      errorRows := ((ofDay s day rows).map (·.errorRows)).sum }

/-! ### What the saves are for -/

/-- The save is of a file and reaches the table. -/
def Event.carriedOut (e : Event) : Bool :=
  e.call.fileId.any (0 < ·) && e.outcome != .raised false

def carriedOut (l : List Event) : List Event := l.filter Event.carriedOut

/-- The last save for a file. -/
def lastSave (l : List Event) (fileId : ℤ) : Option Event :=
  (carriedOut l).reverse.find? (·.call.fileId == some fileId)

/-- The row is of a file and has the values of its last save. -/
def Current (l : List Event) (r : Row) : Prop :=
  ∃ f e, r.fileId = some f ∧ lastSave l f = some e ∧ r.toReport = e.call.report ∧
    r.processingTimeMs = e.call.elapsedMs

/-- The figures of a day count each file of its rows once, with the values of its last save. -/
def CountedOnce (l : List Event) (rows : List Row) (d : TrendDay) : Prop :=
  let files := (rows.filterMap Row.fileId).dedup
  let saves := files.filterMap (lastSave l)
  d.batchCount = files.length ∧
    d.totalRows = (saves.map (·.call.report.totalRows)).sum ∧
    d.errorRows = (saves.map (·.call.report.errorRows)).sum

/-- After the saves `l` the table has one row for each file, with the values of the last save
for it, and the trend counts no file twice. -/
structure Idempotent (items : List TableItem) (l : List Event) : Prop where
  oneRow : ((saveAll items [] l).filterMap Row.fileId).Nodup
  present : ∀ f e, lastSave l f = some e → f ∈ (saveAll items [] l).filterMap Row.fileId
  lastValues : ∀ r ∈ saveAll items [] l, Current l r
  countedOnce : ∀ s now days taskId,
    ∀ d ∈ getQualityTrend s now days taskId (saveAll items [] l),
      CountedOnce l (ofDay s d.day (window s now days taskId (saveAll items [] l))) d

/-- No two saves that are carried out are for the same file. -/
def NoFileTwice (l : List Event) : Prop := ((carriedOut l).filterMap (·.call.fileId)).Nodup

variable {items : List TableItem} {l : List Event} {t : List Row} {e : Event} {f : ℤ}

/-! ### The table after a run -/

lemma carriedOut_iff :
    e.carriedOut = true ↔ (∃ f, e.call.fileId = some f ∧ 0 < f) ∧ e.outcome ≠ .raised false := by
  simp [Event.carriedOut, Option.any_eq_true]

lemma save_snd (items : List TableItem) (e : Event) (t : List Row) :
    (save items e t).2 =
      if e.carriedOut then upsert (uniqueKeys items) onDuplicate t e.row else t := by
  unfold save
  rcases hf : e.call.fileId with _ | f
  · simp [Event.carriedOut, hf]
  · by_cases hpos : f ≤ 0
    · simp [Event.carriedOut, hf, hpos]
    · rcases ho : e.outcome with _ | applied
      · simp [Event.carriedOut, hf, hpos, ho]
      · cases applied <;> simp [Event.carriedOut, hf, hpos, ho]

lemma saveAll_eq (items : List TableItem) (t : List Row) (l : List Event) :
    saveAll items t l =
      upsertAll (uniqueKeys items) onDuplicate t ((carriedOut l).map Event.row) := by
  induction l generalizing t with
  | nil => rfl
  | cons e l ih =>
    have hcons : saveAll items t (e :: l) = saveAll items (save items e t).2 l := rfl
    rw [hcons, ih, save_snd, carriedOut, carriedOut, List.filter_cons]
    by_cases he : e.carriedOut = true <;> simp [he]

/-- The migration's table keeps a row of every save. -/
lemma saveAll_dataQualityLog (l : List Event) :
    saveAll dataQualityLog [] l = (carriedOut l).map Event.row := by
  have hkeys : uniqueKeys dataQualityLog = [] := rfl
  rw [saveAll_eq, hkeys, upsertAll_no_keys, List.nil_append]

lemma mem_carriedOut (h : e ∈ carriedOut l) : ∃ f, e.call.fileId = some f ∧ 0 < f :=
  (carriedOut_iff.mp (List.mem_filter.mp h).2).1

lemma filterMap_row :
    ((carriedOut l).map Event.row).filterMap Row.fileId =
      (carriedOut l).filterMap (·.call.fileId) := by
  rw [List.filterMap_map]
  rfl

lemma lastSave_eq (l : List Event) (f : ℤ) :
    lastSave l f = (carriedOut l).reverse.find? (·.call.fileId == some f) := rfl

lemma mem_of_lastSave (h : lastSave l f = some e) : e ∈ carriedOut l ∧ e.call.fileId = some f := by
  have hmem := List.mem_of_find?_eq_some h
  have hfile := List.find?_some h
  exact ⟨List.mem_reverse.mp hmem, by simpa using hfile⟩

lemma lastSave_of_noFileTwice (h : NoFileTwice l) (he : e ∈ carriedOut l)
    (hf : e.call.fileId = some f) : lastSave l f = some e := by
  rw [lastSave_eq]
  unfold NoFileTwice at h
  generalize carriedOut l = saves at h he
  induction saves with
  | nil => cases he
  | cons x saves ih =>
    rw [List.reverse_cons, List.find?_append]
    rcases List.mem_cons.mp he with rfl | he
    · have hnone : saves.reverse.find? (·.call.fileId == some f) = none := by
        have hcons : (e :: saves).filterMap (·.call.fileId) =
            f :: saves.filterMap (·.call.fileId) := List.filterMap_cons_some hf
        rw [hcons] at h
        have hnotin := (List.nodup_cons.mp h).1
        refine List.find?_eq_none.mpr fun x hx hxf => hnotin ?_
        exact List.mem_filterMap.mpr ⟨x, List.mem_reverse.mp hx, by simpa using hxf⟩
      simp [hnone, hf]
    · have hnodup : (saves.filterMap (·.call.fileId)).Nodup :=
        h.sublist (List.Sublist.filterMap _ (List.sublist_cons_self x saves))
      rw [ih hnodup he, Option.some_or]

/-! ### The figures of a day -/

lemma length_filterMap_fileId (h : ∀ r ∈ t, Current l r) :
    (t.filterMap Row.fileId).length = t.length := by
  refine List.filterMap_length_eq_length.mpr fun r hr => ?_
  obtain ⟨f, e, hf, -⟩ := h r hr
  simp [hf]

lemma sum_lastSave (g : Report → ℕ) (h : ∀ r ∈ t, Current l r) :
    (((t.filterMap Row.fileId).filterMap (lastSave l)).map (g ·.call.report)).sum =
      (t.map (g ·.toReport)).sum := by
  induction t with
  | nil => rfl
  | cons r t ih =>
    obtain ⟨f, e, hf, he, hr, -⟩ := h r (List.mem_cons_self ..)
    have ih := ih fun r' hr' => h r' (List.mem_cons_of_mem _ hr')
    simp only [List.filterMap_cons_some hf, List.filterMap_cons_some he, List.map_cons,
      List.sum_cons, ih, hr]

lemma countedOnce_of_current (hnodup : (t.filterMap Row.fileId).Nodup)
    (hcur : ∀ r ∈ t, Current l r) {s : Server} {now : ℕ} {days : ℤ} {taskId : String}
    {d : TrendDay} (hd : d ∈ getQualityTrend s now days taskId t) :
    CountedOnce l (ofDay s d.day (window s now days taskId t)) d := by
  obtain ⟨day, -, rfl⟩ := List.mem_map.mp hd
  simp only
  set rows := ofDay s day (window s now days taskId t) with hrows
  have hsub : rows.Sublist t :=
    List.filter_sublist.trans List.filter_sublist
  have hcur : ∀ r ∈ rows, Current l r := fun r hr => hcur r (hsub.subset hr)
  have hdedup : (rows.filterMap Row.fileId).dedup = rows.filterMap Row.fileId :=
    List.dedup_eq_self.mpr (hnodup.sublist (hsub.filterMap _))
  refine ⟨?_, ?_, ?_⟩
  · simp only [hdedup, length_filterMap_fileId hcur]
  · simp only [hdedup]
    exact (sum_lastSave (·.totalRows) hcur).symm
  · simp only [hdedup]
    exact (sum_lastSave (·.errorRows) hcur).symm

/-! ### The migration's table -/

lemma current_row (h : NoFileTwice l) (he : e ∈ carriedOut l) : Current l e.row := by
  obtain ⟨f, hf, -⟩ := mem_carriedOut he
  exact ⟨f, e, hf, lastSave_of_noFileTwice h he hf, rfl, rfl⟩

/-- The saves are idempotent exactly as long as no file is saved again. -/
theorem idempotent_iff_noFileTwice (l : List Event) :
    Idempotent dataQualityLog l ↔ NoFileTwice l := by
  have hrows := saveAll_dataQualityLog l
  constructor
  · intro h
    have hone := h.oneRow
    rwa [hrows, filterMap_row] at hone
  · intro h
    have hone : ((saveAll dataQualityLog [] l).filterMap Row.fileId).Nodup := by
      rwa [hrows, filterMap_row]
    have hcur : ∀ r ∈ saveAll dataQualityLog [] l, Current l r := by
      intro r hr
      rw [hrows] at hr
      obtain ⟨e, he, rfl⟩ := List.mem_map.mp hr
      exact current_row h he
    refine ⟨hone, fun f e he => ?_, hcur, fun s now days taskId d hd => ?_⟩
    · obtain ⟨hmem, hf⟩ := mem_of_lastSave he
      rw [hrows, filterMap_row]
      exact List.mem_filterMap.mpr ⟨e, hmem, hf⟩
    · exact countedOnce_of_current hone hcur hd

/-- Ten rows, two of them bad. -/
def sampleReport : Report where
  totalRows := 10
  validRows := 8
  errorRows := 2
  nullRate := 0
  qualityScore := 88

/-- The file 7 is processed, and processed again. -/
def savedAgain : List Event :=
  [⟨⟨"t1", some 7, "/in/a.csv", sampleReport, 120⟩, 1, 1000, .done⟩,
    ⟨⟨"t1", some 7, "/in/a.csv", sampleReport, 130⟩, 2, 2000, .done⟩]

theorem not_idempotent_savedAgain : ¬ Idempotent dataQualityLog savedAgain := by
  intro h
  have hone := h.oneRow
  rw [saveAll_dataQualityLog, filterMap_row] at hone
  exact absurd hone (by decide)

/-- The trend counts the twenty rows of two batches. -/
example : getQualityTrend ⟨(· == ·), (· / 86400)⟩ 3000 30 "t1"
    (saveAll dataQualityLog [] savedAgain) = [⟨0, 2, 20, 4⟩] := by
  decide

end Tdcs.QualityLog
