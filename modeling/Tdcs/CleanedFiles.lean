import Tdcs.CleanerRun
import Tdcs.Extractor

/-!
A cleaned file on its way back: what a download gives, `_stream_csv` reads.

`csv.DictWriter` writes every value as its text and what is missing as nothing; `csv.DictReader`
gives the texts back, row by row, under the labels of the columns.
-/

namespace Tdcs.CleanedFiles

open Tdcs.Lib Tdcs.Lib.Run Tdcs.CleanerRun Tdcs.Extractor

/-- What `csv.DictReader` puts under a key: a text, or what a row has beyond the header. -/
inductive CsvValue
  | text (s : String)
  | rest (l : List String)
  deriving DecidableEq, Repr

abbrev CsvRow := Extractor.Row CsvValue

/-- `DictReader.__next__` on a row that is not blank. -/
def dictRow (fieldnames row : List String) : CsvRow :=
  let d := Dict.ofPairs ((fieldnames.map some).zip (row.map fun s => some (CsvValue.text s)))
  if fieldnames.length < row.length then
    d.set none (some (.rest (row.drop fieldnames.length)))
  else (fieldnames.drop row.length).foldl (fun d k => d.set (some k) none) d

/-- The rows behind the header, without the blank ones. -/
def dictRows : List (List String) → List CsvRow
  | [] => []
  | fieldnames :: rows => (rows.filter (· ≠ [])).map (dictRow fieldnames)

/-- `list(csv.DictReader(f))`, if it does not raise. -/
def dictReader (limit : ℕ) (text : List Char) : Option (List CsvRow) :=
  (Csv.read limit text).map fun rows => dictRows (rows.map fun row => row.map String.ofList)

variable {V β : Type*}

/-- The row a cleaned row is read back as: under each column the text of its value. -/
def readBack (o : Outside V β) (columns : List Column) (row : CleanerRun.Row V) : CsvRow :=
  Dict.ofPairs (columns.map fun c =>
    (some c.text, some (.text (String.ofList (cellText o row c)))))

/-- There are columns, and no text is longer than the reader takes. -/
structure Readable (o : Outside V β) (limit : ℕ) (columns : List Column)
    (rows : List (CleanerRun.Row V)) : Prop where
  some : columns ≠ []
  labels : ∀ c ∈ columns, c.text.toList.length ≤ limit
  cells : ∀ row ∈ rows, ∀ c ∈ columns, (cellText o row c).length ≤ limit

/-- The events' run of a template has come to these columns and rows. -/
def CameTo (o : Outside V β) (e : Event V β) (columns : List Column)
    (rows : List (CleanerRun.Row V)) : Prop :=
  ∃ req script token ago nameAgo name path bytes output,
    e = .run req script token ago nameAgo ∧ prepare o req = .ok (name, path, bytes) ∧
      script path bytes = .ok output ∧ columns = output.columns.getD [] ∧
        rows = output.rows.getD []

/-- The event is the run whose result waits under the token: it has stored it, and no event has
touched the token since. -/
def Fills (o : Outside V β) (es : List (Event V β)) (token : String) (e : Event V β) : Prop :=
  ∃ before later entry, es = before ++ e :: later ∧
    stored o (after o before) e = some (token, entry) ∧
      Steps (step o) (Untouched o token) (after o (before ++ [e])) later

variable {o : Outside V β} {limit : ℕ} {columns : List Column} {rows : List (CleanerRun.Row V)}
  {csv : List Char}

lemma dictRow_map (o : Outside V β) (columns : List Column) (row : CleanerRun.Row V) :
    dictRow (columns.map Column.text)
      ((columns.map (cellText o row)).map String.ofList) = readBack o columns row := by
  have hlen : (columns.map Column.text).length =
      ((columns.map (cellText o row)).map String.ofList).length := by simp
  unfold dictRow readBack
  dsimp only
  rw [if_neg (by omega), List.drop_of_length_le (by simp), List.foldl_nil]
  congr 1
  induction columns with
  | nil => rfl
  | cons c columns ih => simpa using ih (by simp)

lemma dictRows_writeCsv (hne : columns ≠ []) (rows : List (CleanerRun.Row V)) :
    dictRows ((columns.map (fun c => c.text.toList) ::
      rows.map fun row => columns.map (cellText o row)).map fun row => row.map String.ofList) =
        rows.map (readBack o columns) := by
  have hheader : (columns.map fun c => c.text.toList).map String.ofList =
      columns.map Column.text := by
    rw [List.map_map]
    exact List.map_congr_left fun c _ => String.ofList_toList
  have hall : ∀ row ∈ (rows.map fun row => columns.map (cellText o row)).map
      fun row => row.map String.ofList, decide (row ≠ []) = true := by
    intro row hrow
    simp only [List.map_map, List.mem_map, Function.comp_apply] at hrow
    obtain ⟨r, -, rfl⟩ := hrow
    simpa using hne
  rw [List.map_cons, dictRows, hheader, List.filter_eq_self.2 hall, List.map_map, List.map_map]
  exact List.map_congr_left fun row _ => dictRow_map o columns row

lemma dictReader_writeCsv (h : Readable o limit columns rows)
    (hcsv : writeCsv o columns rows = some csv) :
    dictReader limit csv = some (rows.map (readBack o columns)) := by
  unfold writeCsv at hcsv
  split_ifs at hcsv
  cases hcsv
  have hlen : ∀ row ∈ (columns.map (fun c => c.text.toList) ::
      rows.map fun row => columns.map (cellText o row)), ∀ f ∈ row, f.length ≤ limit := by
    rw [List.forall_mem_cons]
    constructor
    · intro f hf
      obtain ⟨c, hc, rfl⟩ := List.mem_map.1 hf
      exact h.labels c hc
    · intro row hrow f hf
      obtain ⟨r, hr, rfl⟩ := List.mem_map.1 hrow
      obtain ⟨c, hc, rfl⟩ := List.mem_map.1 hf
      exact h.cells r hr c hc
  rw [dictReader, Csv.read_writerows hlen, Option.map_some, dictRows_writeCsv h.some]

lemma writeCsv_of_answer {name token : String} {previewOnly : Bool} {output : Output V}
    {stamp nameStamp : ℚ} {entry : Entry}
    (h : (answer o name previewOnly output token stamp nameStamp).2 = some entry) :
    writeCsv o (output.columns.getD []) (output.rows.getD []) = some entry.csv := by
  unfold answer at h
  dsimp only at h
  by_cases hrows : (output.rows.getD []).isEmpty = true
  · rw [if_pos hrows] at h
    cases h
  · rw [if_neg hrows] at h
    rcases hcsv : writeCsv o (output.columns.getD []) (output.rows.getD []) with _ | csv
    · rw [hcsv] at h
      cases h
    · rw [hcsv] at h
      cases h
      rfl

lemma cameTo_of_stored {s : State} {e : Event V β} {token : String} {entry : Entry}
    (h : stored o s e = some (token, entry)) :
    ∃ columns rows, CameTo o e columns rows ∧ writeCsv o columns rows = some entry.csv := by
  cases e with
  | run req script token' ago nameAgo =>
    obtain ⟨entry', hentry, heq⟩ := Option.map_eq_some_iff.1 h
    cases heq
    unfold runCleaner at hentry
    split at hentry
    · cases hentry
    · next name path bytes hprep =>
      split at hentry
      · cases hentry
      · cases hentry
      · next output hscript =>
        exact ⟨_, _, ⟨req, script, token, ago, nameAgo, name, path, bytes, output, rfl, hprep,
          hscript, rfl, rfl⟩, writeCsv_of_answer hentry⟩
  | tick d => cases h
  | purge ago => cases h
  | download token' => cases h

/-- A file with this text, to be read as UTF-8; under another encoding anything may be read. -/
def csvFile (path : String) (limit : ℕ) (csv : List Char)
    (other : String → Parsed CsvRow) : FileView CsvValue where
  path := path
  size := (String.ofList csv).utf8ByteSize
  ext := ".csv"
  csv := fun encoding =>
    if encoding = "utf-8" then
      match dictReader limit csv with
      | some rows => ⟨rows, none⟩
      | none => other encoding
    else other encoding

lemma writeCsv_ne_nil (hcsv : writeCsv o columns rows = some csv) : csv ≠ [] := by
  unfold writeCsv at hcsv
  split_ifs at hcsv
  cases hcsv
  simp [Csv.writerows, Csv.writerow]

lemma stream_csvFile {rows' : List CsvRow} (ops : ValueOps CsvValue) (path : String)
    (other : String → Parsed CsvRow) (hne : csv ≠ []) (hread : dictReader limit csv = some rows')
    {cfg : TaskConfig} (henc : cfg.encoding = "utf-8") :
    (stream ops (csvFile path limit csv other) cfg).fail = none ∧
      (stream ops (csvFile path limit csv other) cfg).batches.flatten = rows'.map some := by
  have hsize : (csvFile path limit csv other).size ≠ 0 := by
    intro h0
    have hnil : String.ofList csv = "" := String.utf8ByteSize_eq_zero_iff.1 h0
    exact hne (by simpa using congrArg String.toList hnil)
  have hrecords : records ops (csvFile path limit csv other) cfg "item" =
      ⟨rows'.map some, none⟩ := by
    have hdetect : detectEncoding (csvFile path limit csv other) cfg.encoding = "utf-8" := by
      rw [henc]
      rfl
    have hcsv : (csvFile path limit csv other).csv "utf-8" = ⟨rows', none⟩ := by
      simp [csvFile, hread]
    unfold records
    rw [if_neg (by simp [csvFile]), if_neg hsize]
    show parse ops (csvFile path limit csv other)
      (detectEncoding (csvFile path limit csv other) cfg.encoding) "item" .csv = _
    rw [hdetect]
    show Parsed.mk _ _ = _
    rw [hcsv]
  unfold stream
  dsimp only
  rw [hrecords]
  exact ⟨rfl, batches_flatten _ _ rfl⟩

/-- **A downloaded result can be loaded again**: after any events, a file that a download is
answered with, put where a task reads it as UTF-8, is streamed as the rows that the template of the
run which stored it came to, each value as its text, in their order and in batches of any size. -/
theorem stream_download (o : Outside V β) (es : List (Event V β)) (token filename : String)
    (csv : List Char) (limit : ℕ)
    (hdownload : (download (V := V) token (after o es).clock (after o es).store).1 =
      .file csv filename)
    (hreadable : ∀ e columns rows, Fills o es token e → CameTo o e columns rows →
      Readable o limit columns rows)
    (ops : ValueOps CsvValue) (path : String) (other : String → Parsed CsvRow)
    (cfg : TaskConfig) (henc : cfg.encoding = "utf-8") :
    ∃ e columns rows, Fills o es token e ∧ CameTo o e columns rows ∧
      (stream ops (csvFile path limit csv other) cfg).fail = none ∧
        (stream ops (csvFile path limit csv other) cfg).batches.flatten =
          rows.map fun row => some (readBack o columns row) := by
  obtain ⟨entry, ⟨before, e, later, hes, hstored, hlater⟩, -, rfl, -⟩ :=
    awaits_of_download hdownload
  have hfills : Fills o es token e := ⟨before, later, entry, hes, hstored, hlater⟩
  obtain ⟨columns, rows, hcame, hcsv⟩ := cameTo_of_stored hstored
  have hread := dictReader_writeCsv (hreadable e columns rows hfills hcame) hcsv
  obtain ⟨hfail, hflat⟩ := stream_csvFile ops path other (writeCsv_ne_nil hcsv) hread henc
  refine ⟨e, columns, rows, hfills, hcame, hfail, hflat.trans ?_⟩
  rw [List.map_map]
  rfl

/-- A service with one template, texts for values, and no Excel files. -/
def trimOnly : Outside String String where
  str s := s
  size := String.length
  lower s := s
  excelToCsv _ := .error "no Excel"
  getPath name := if name = "trim" then some "clean_templates/trim.py" else none

/-- What `trim` makes of every file. -/
def trimmed : Output String where
  rows := some [Dict.empty.set "id" (some "1"), Dict.empty.set "id" none]
  columns := some [.str "id"]

/-- A file is cleaned, and a minute later the result is still there. -/
def cleanedOnce : List (Event String String) := [
  .purge 0,
  .run ⟨some ⟨"a.csv", "id"⟩, some "trim", none, none⟩ (fun _ _ => .ok trimmed) "0a1b" 0 0,
  .tick 60]

lemma readable_cleanedOnce {e : Event String String} {columns : List Column}
    {rows : List (CleanerRun.Row String)} (hfills : Fills trimOnly cleanedOnce "0a1b" e)
    (hcame : CameTo trimOnly e columns rows) : Readable trimOnly 131072 columns rows := by
  obtain ⟨before, later, entry, hes, -, -⟩ := hfills
  obtain ⟨req, script, token, ago, nameAgo, name, path, bytes, output, rfl, -, hscript, rfl, rfl⟩ :=
    hcame
  have hmem : Event.run req script token ago nameAgo ∈ cleanedOnce := by
    rw [hes]
    simp
  simp only [cleanedOnce, List.mem_cons, reduceCtorEq, Event.run.injEq, List.not_mem_nil, or_false,
    false_or] at hmem
  obtain ⟨-, rfl, -⟩ := hmem
  cases hscript
  constructor
  · exact List.cons_ne_nil _ _
  · decide +kernel
  · decide +kernel

/-- A task that reads a folder as UTF-8. -/
def reload : TaskConfig where
  taskId := "reload"
  name := "reload"
  monitorFolder := "/in"
  fileExtensions := [".csv"]
  encoding := "utf-8"
  transformerModule := ""
  transformerFunction := ""
  baseTable := "cleaned"
  partitionField := "day"

theorem stream_download_cleanedOnce :
    ∃ e columns rows, Fills trimOnly cleanedOnce "0a1b" e ∧ CameTo trimOnly e columns rows ∧
      (stream ⟨fun _ => true, fun _ => ""⟩ (csvFile "/in/a.csv" 131072
        ['i', 'd', '\r', '\n', '1', '\r', '\n', '"', '"', '\r', '\n'] fun _ => ⟨[], none⟩)
          reload).fail = none ∧
        (stream ⟨fun _ => true, fun _ => ""⟩ (csvFile "/in/a.csv" 131072
          ['i', 'd', '\r', '\n', '1', '\r', '\n', '"', '"', '\r', '\n'] fun _ => ⟨[], none⟩)
            reload).batches.flatten =
              rows.map fun row => some (readBack trimOnly columns row) :=
  stream_download trimOnly cleanedOnce "0a1b" "cleaned_trim_0.csv" _ 131072 (by decide +kernel)
    (fun _ _ _ => readable_cleanedOnce) ⟨fun _ => true, fun _ => ""⟩ "/in/a.csv"
    (fun _ => ⟨[], none⟩) reload rfl

end Tdcs.CleanedFiles
