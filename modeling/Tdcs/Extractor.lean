import Tdcs.Lib.Dict
import Tdcs.ConfigModels
import Tdcs.PipelineResult

/-!
`StreamingExtractor`: a file as a stream of batches.

The parsers (`csv.DictReader`, `ijson.items`, the rows of an `openpyxl` sheet) are given by
what they yield and the exception they may end in. The loops that cut their output into
batches are those of the source.
-/

namespace Tdcs.Extractor

open Tdcs.Lib

/-- What the code asks of a Python value other than `None`. -/
structure ValueOps (V : Type*) where
  truthy : V → Bool
  str : V → String

/-- A row: a `dict`, whose keys are strings or, as `csv.DictReader` makes it for surplus
cells, `None`. -/
abbrev Row (V : Type*) := Dict (Option String) (Option V)

/-- `row.get(key)`. -/
def getCell {V : Type*} (r : Row V) (key : Option String) : Option V := (r.get? key).join

/-- What stands in a batch: a row or `None`. -/
abbrev Item (V : Type*) := Option (Row V)

/-- What a parser yields, and what it raises at last, if anything. -/
structure Parsed (α : Type*) where
  items : List α
  fail : Option Exc := none

inductive ExcelBook (V : Type*)
  | locked
  | unreadable (msg : String)
  | noActiveSheet
  | sheet (rows : Parsed (List (Option V)))

/-- The answer of `chardet`, and whether its confidence reaches `_MIN_CHARDET_CONFIDENCE`. -/
structure Detected where
  encoding : Option String
  confident : Bool

/-- A file as the extractor sees it. -/
structure FileView (V : Type*) where
  path : String
  found : Bool := true
  size : ℕ
  /-- `Path(file_path).suffix.lower()`. -/
  ext : String
  chardet : Option Detected := none
  /-- `csv.DictReader` under an encoding. -/
  csv : String → Parsed (Row V) := fun _ => ⟨[], none⟩
  /-- `ijson.items` under a path. -/
  json : String → Parsed (Item V) := fun _ => ⟨[], none⟩
  excel : ExcelBook V := .noActiveSheet

/-- The batches the generator yields, and the exception it ends in, if it does. -/
structure Stream (V : Type*) where
  batches : List (List (Item V))
  fail : Option Exc

/-- `_FORMAT_REGISTRY`. -/
def formatRegistry : List (String × ExtractorKind) :=
  [(".csv", .csv), (".json", .json), (".xlsx", .excel), (".xls", .excel)]

/-- The loop of the three `_stream_*` methods: the batches yielded while `batch` grows, and
the batch left at the end. -/
def batchLoop {α : Type*} (batchSize : ℤ) (batch : List α) : List α → List (List α) × List α
  | [] => ([], batch)
  | x :: xs =>
    let batch := batch ++ [x]
    if batchSize ≤ batch.length then
      let (yielded, rest) := batchLoop batchSize [] xs
      (batch :: yielded, rest)
    else batchLoop batchSize batch xs

/-- The loop and the `if batch: yield batch` behind it, which an exception skips. -/
def batches {α : Type*} (batchSize : ℤ) (p : Parsed α) : List (List α) :=
  let (yielded, rest) := batchLoop batchSize [] p.items
  if p.fail.isSome || rest.isEmpty then yielded else yielded ++ [rest]

variable {V : Type*}

/-- `_detect_encoding`. -/
def detectEncoding (file : FileView V) (hint : String) : String :=
  if hint ≠ "auto" then hint
  else match file.chardet with
    | some ⟨some encoding, true⟩ => if encoding = "" then "utf-8" else encoding
    | _ => "utf-8"

/-- The header cells of a sheet. -/
def excelHeaders (ops : ValueOps V) (row : List (Option V)) : List (Option String) :=
  row.mapIdx fun i c => some ((c.map ops.str).getD ("col_" ++ toString i))

/-- The rows of a sheet: the first is the header. -/
def excelRows (ops : ValueOps V) : List (List (Option V)) → List (Row V)
  | [] => []
  | header :: rows => rows.map fun row => Dict.ofPairs ((excelHeaders ops header).zip row)

/-- The rows the three formats read, in file order, with the exception they end in. -/
def parse (ops : ValueOps V) (file : FileView V) (encoding jsonPath : String) :
    ExtractorKind → Parsed (Item V)
  | .csv => let p := file.csv encoding; ⟨p.items.map some, p.fail⟩
  | .json =>
    let p := file.json jsonPath
    ⟨p.items, p.fail.map fun e => .skipFile ("JSON parse error in " ++ file.path ++
      " (json_path='" ++ jsonPath ++ "'): " ++ e.str)⟩
  | .excel => match file.excel with
    | .locked => ⟨[], some (.skipFile ("Excel file is locked by another process: " ++ file.path))⟩
    | .unreadable msg =>
      ⟨[], some (.skipFile ("Failed to open Excel file " ++ file.path ++ ": " ++ msg))⟩
    | .noActiveSheet => ⟨[], some (.skipFile ("Excel has no active sheet: " ++ file.path))⟩
    | .sheet rows => ⟨(excelRows ops rows.items).map some, rows.fail⟩

/-- The rows of the file, or the refusal of `stream`. -/
def records (ops : ValueOps V) (file : FileView V) (cfg : TaskConfig) (jsonPath : String) :
    Parsed (Item V) :=
  if !file.found then ⟨[], some (.skipFile ("File not found: " ++ file.path))⟩
  else if file.size = 0 then ⟨[], some (.skipFile ("Empty file: " ++ file.path))⟩
  else match formatRegistry.lookup file.ext with
    | none => ⟨[], some (.skipFile ("Unsupported format: " ++ file.ext))⟩
    | some fmt => parse ops file (detectEncoding file cfg.encoding) jsonPath fmt

/-- `stream`. A task without `json_path` reads the items of a top level array. -/
def stream (ops : ValueOps V) (file : FileView V) (cfg : TaskConfig)
    (jsonPath : String := "item") : Stream V :=
  let p := records ops file cfg jsonPath
  ⟨batches cfg.batchSize p, p.fail⟩

/-! ### Batches -/

lemma batchLoop_flatten {α : Type*} (n : ℤ) (batch xs : List α) :
    (batchLoop n batch xs).1.flatten ++ (batchLoop n batch xs).2 = batch ++ xs := by
  induction xs generalizing batch with
  | nil => simp [batchLoop]
  | cons x xs ih =>
    unfold batchLoop
    dsimp only
    split_ifs with h
    · rw [List.flatten_cons, List.append_assoc, ih]
      simp
    · rw [ih]
      simp

/-- **Batching loses nothing.** The batches of a file that is read to its end are its rows,
in file order. -/
theorem batches_flatten {α : Type*} (n : ℤ) (p : Parsed α) (h : p.fail = none) :
    (batches n p).flatten = p.items := by
  have hloop := batchLoop_flatten n [] p.items
  rw [List.nil_append] at hloop
  unfold batches
  rcases hb : batchLoop n [] p.items with ⟨yielded, rest⟩
  rw [hb] at hloop
  rcases rest with _ | ⟨x, rest⟩
  · simpa [h] using hloop
  · simpa [h] using hloop

end Tdcs.Extractor
