import Tdcs.Extractor
import Mathlib.Tactic.Linarith

/-!
The three generators `_stream_csv`, `_stream_json` and `_stream_excel`, and how their batches
cut the rows.

The first two are the loop of `Tdcs.Extractor` over what the parser yields. The loop of
`_stream_excel` also carries the header it has read, and takes the first row for it.
-/

namespace Tdcs.Extractor

open Tdcs.Lib

variable {V : Type*}

/-- `_stream_csv` behind `csv.DictReader`. -/
def streamCsv (batchSize : ℤ) (reader : Parsed (Row V)) : List (List (Row V)) :=
  batches batchSize reader

/-- `_stream_json` behind `ijson.items`. -/
def streamJson (batchSize : ℤ) (items : Parsed (Item V)) : List (List (Item V)) :=
  batches batchSize items

/-- The loop of `_stream_excel`: `headers` is `None` up to the first row. -/
def excelLoop (ops : ValueOps V) (batchSize : ℤ) (headers : Option (List (Option String)))
    (batch : List (Row V)) : List (List (Option V)) → List (List (Row V)) × List (Row V)
  | [] => ([], batch)
  | row :: rows =>
    match headers with
    | none => excelLoop ops batchSize (some (excelHeaders ops row)) batch rows
    | some headers =>
      let batch := batch ++ [Dict.ofPairs (headers.zip row)]
      if batchSize ≤ batch.length then
        let (yielded, rest) := excelLoop ops batchSize (some headers) [] rows
        (batch :: yielded, rest)
      else excelLoop ops batchSize (some headers) batch rows

/-- `_stream_excel` behind `iter_rows`. -/
def streamExcel (ops : ValueOps V) (batchSize : ℤ) (sheet : Parsed (List (Option V))) :
    List (List (Row V)) :=
  let (yielded, rest) := excelLoop ops batchSize none [] sheet.items
  if sheet.fail.isSome || rest.isEmpty then yielded else yielded ++ [rest]

/-- The last lines of `stream`: the generator of the format. A book that does not open has none. -/
def dispatch (ops : ValueOps V) (file : FileView V) (batchSize : ℤ)
    (encoding jsonPath : String) : ExtractorKind → List (List (Item V))
  | .csv => (streamCsv batchSize (file.csv encoding)).map (List.map some)
  | .json => streamJson batchSize (file.json jsonPath)
  | .excel => match file.excel with
    | .sheet rows => (streamExcel ops batchSize rows).map (List.map some)
    | _ => []

/-! ### The loop of `_stream_excel` -/

lemma excelLoop_some (ops : ValueOps V) (n : ℤ) (headers : List (Option String))
    (batch : List (Row V)) (rows : List (List (Option V))) :
    excelLoop ops n (some headers) batch rows =
      batchLoop n batch (rows.map fun row => Dict.ofPairs (headers.zip row)) := by
  induction rows generalizing batch with
  | nil => rfl
  | cons row rows ih => simp only [excelLoop, batchLoop, List.map_cons, ih]

lemma excelLoop_none (ops : ValueOps V) (n : ℤ) (rows : List (List (Option V))) :
    excelLoop ops n none [] rows = batchLoop n [] (excelRows ops rows) := by
  cases rows with
  | nil => rfl
  | cons header rows => exact excelLoop_some ops n (excelHeaders ops header) [] rows

lemma streamExcel_eq (ops : ValueOps V) (n : ℤ) (sheet : Parsed (List (Option V))) :
    streamExcel ops n sheet = batches n ⟨excelRows ops sheet.items, sheet.fail⟩ := by
  simp only [streamExcel, batches, excelLoop_none]

/-! ### `stream` runs them -/

lemma batchLoop_map {α β : Type*} (f : α → β) (n : ℤ) (batch xs : List α) :
    batchLoop n (batch.map f) (xs.map f) =
      ((batchLoop n batch xs).1.map (List.map f), (batchLoop n batch xs).2.map f) := by
  induction xs generalizing batch with
  | nil => rfl
  | cons x xs ih =>
    have hgrow : batch.map f ++ [f x] = (batch ++ [x]).map f := by simp
    simp only [batchLoop, List.map_cons, hgrow, List.length_map]
    split_ifs
    · have hnext := ih []
      rw [List.map_nil] at hnext
      rw [hnext, List.map_cons]
    · exact ih _

lemma batches_map {α β : Type*} (f : α → β) (n : ℤ) (p : Parsed α) (fail : Option Exc)
    (h : fail.isSome = p.fail.isSome) :
    batches n ⟨p.items.map f, fail⟩ = (batches n p).map (List.map f) := by
  have hloop := batchLoop_map f n [] p.items
  rw [List.map_nil] at hloop
  simp only [batches, hloop, h, List.isEmpty_map]
  split_ifs <;> simp

/-- The batches of `stream` for a file it reads, format by format. -/
theorem stream_batches (ops : ValueOps V) (file : FileView V) (cfg : TaskConfig)
    (jsonPath : String) {fmt : ExtractorKind} (hfound : file.found = true)
    (hsize : file.size ≠ 0) (hfmt : formatRegistry.lookup file.ext = some fmt) :
    (stream ops file cfg jsonPath).batches =
      dispatch ops file cfg.batchSize (detectEncoding file cfg.encoding) jsonPath fmt := by
  have hrec : records ops file cfg jsonPath =
      parse ops file (detectEncoding file cfg.encoding) jsonPath fmt := by
    simp [records, hfound, hsize, hfmt]
  rw [stream, hrec]
  cases fmt with
  | csv => exact batches_map some _ _ _ rfl
  | json => simp [parse, dispatch, streamJson, batches]
  | excel =>
    rcases hbook : file.excel with _ | msg | _ | rows
    · simp [parse, dispatch, hbook, batches, batchLoop]
    · simp [parse, dispatch, hbook, batches, batchLoop]
    · simp [parse, dispatch, hbook, batches, batchLoop]
    · simp only [parse, dispatch, hbook, streamExcel_eq]
      exact batches_map some _ ⟨excelRows ops rows.items, rows.fail⟩ _ rfl

/-! ### The partition -/

/-- The batches cut the rows into pieces of `n`, but for a last one that may be shorter. -/
structure Partition {α : Type*} (n : ℤ) (rows : List α) (bs : List (List α)) : Prop where
  flatten : bs.flatten = rows
  ne_nil : ∀ b ∈ bs, b ≠ []
  full : ∀ b ∈ bs.dropLast, (b.length : ℤ) = n
  last : ∀ b ∈ bs.getLast?, (b.length : ℤ) ≤ n

lemma batchLoop_length {α : Type*} {n : ℤ} (hn : 1 ≤ n) (batch xs : List α)
    (hbatch : (batch.length : ℤ) < n) :
    (∀ b ∈ (batchLoop n batch xs).1, (b.length : ℤ) = n) ∧
      ((batchLoop n batch xs).2.length : ℤ) < n := by
  induction xs generalizing batch with
  | nil => exact ⟨nofun, hbatch⟩
  | cons x xs ih =>
    have hgrown : ((batch ++ [x]).length : ℤ) = batch.length + 1 := by simp
    unfold batchLoop
    dsimp only
    split_ifs with hfull
    · obtain ⟨hyielded, hrest⟩ := ih [] (by simp only [List.length_nil]; omega)
      refine ⟨fun b hb => ?_, hrest⟩
      rcases List.mem_cons.mp hb with rfl | hb
      · omega
      · exact hyielded b hb
    · exact ih _ (by omega)

lemma Partition.of_full {α : Type*} {n : ℤ} (hn : 1 ≤ n) {bs : List (List α)}
    (h : ∀ b ∈ bs, (b.length : ℤ) = n) : Partition n bs.flatten bs where
  flatten := rfl
  ne_nil b hb hnil := by
    have hlen := h b hb
    rw [hnil, List.length_nil] at hlen
    omega
  full b hb := h b (List.dropLast_subset bs hb)
  last b hb := (h b (List.mem_of_getLast? hb)).le

lemma Partition.snoc {α : Type*} {n : ℤ} (hn : 1 ≤ n) {bs : List (List α)} {rest : List α}
    (h : ∀ b ∈ bs, (b.length : ℤ) = n) (hne : rest ≠ []) (hrest : (rest.length : ℤ) < n) :
    Partition n (bs.flatten ++ rest) (bs ++ [rest]) where
  flatten := by simp
  ne_nil b hb := by
    rcases List.mem_append.mp hb with hb | hb
    · exact (Partition.of_full hn h).ne_nil b hb
    · rwa [List.mem_singleton.mp hb]
  full b hb := h b (by simpa using hb)
  last b hb := by
    have hlast : b = rest := by simpa using hb.symm
    rw [hlast]
    exact hrest.le

theorem batches_partition {α : Type*} {n : ℤ} (hn : 1 ≤ n) {p : Parsed α}
    (hp : p.fail = none) : Partition n p.items (batches n p) := by
  obtain ⟨hyielded, hrest⟩ := batchLoop_length hn [] p.items
    (by simp only [List.length_nil]; omega)
  have hflat := batchLoop_flatten n [] p.items
  rw [List.nil_append] at hflat
  unfold batches
  rcases hb : batchLoop n [] p.items with ⟨yielded, rest⟩
  rw [hb] at hyielded hrest hflat
  rw [← hflat]
  cases rest with
  | nil => simpa [hp] using Partition.of_full hn hyielded
  | cons x rest => simpa [hp] using Partition.snoc hn hyielded (List.cons_ne_nil x rest) hrest

/-- **Extraction batches partition the rows**, in all three formats, for every number of rows
and every batch size. -/
theorem streams_partition (ops : ValueOps V) {batchSize : ℤ} (h : 1 ≤ batchSize)
    (reader : Parsed (Row V)) (items : Parsed (Item V)) (sheet : Parsed (List (Option V))) :
    (reader.fail = none → Partition batchSize reader.items (streamCsv batchSize reader)) ∧
      (items.fail = none → Partition batchSize items.items (streamJson batchSize items)) ∧
      (sheet.fail = none →
        Partition batchSize (excelRows ops sheet.items) (streamExcel ops batchSize sheet)) := by
  refine ⟨batches_partition h, batches_partition h, fun hs => ?_⟩
  rw [streamExcel_eq]
  exact batches_partition (p := ⟨excelRows ops sheet.items, sheet.fail⟩) h hs

/-- A sheet with nothing below its header, an exact multiple and a batch left over. -/
theorem streams_partition_two :
    let ops : ValueOps ℕ := ⟨fun n => n != 0, toString⟩
    let row (n : ℕ) : Row ℕ := Dict.ofPairs [(some "a", some n)]
    Partition 2 [row 1, row 2] (streamCsv 2 ⟨[row 1, row 2], none⟩) ∧
      Partition 2 [some (row 1), none, some (row 3)]
        (streamJson 2 ⟨[some (row 1), none, some (row 3)], none⟩) ∧
      Partition 2 [] (streamExcel ops 2 ⟨[[some 7]], none⟩) := by
  intro ops row
  obtain ⟨hcsv, hjson, hexcel⟩ := streams_partition ops (by norm_num : (1 : ℤ) ≤ 2)
    ⟨[row 1, row 2], none⟩ ⟨[some (row 1), none, some (row 3)], none⟩ ⟨[[some 7]], none⟩
  exact ⟨hcsv rfl, hjson rfl, hexcel rfl⟩

end Tdcs.Extractor
