import Tdcs.Pipeline

/-!
What a successful run sends to each table: the rows of the transform that belong there, in
file order, each as one tuple.
-/

namespace Tdcs.Pipeline

open Tdcs.Lib Tdcs.Extractor

variable {V : Type*} {w : World V} {cfg : TaskConfig}

/-- All rows the transform returned, batch by batch. -/
def transformed (w : World V) (cfg : TaskConfig) (ps : List (List (Item V) × ℕ)) :
    List (Item V) :=
  ps.flatMap fun p => ((transform w cfg p.2 p.1).toOption).getD []

lemma under_batchEmission (table : String) (k : ℕ) (out : List (Item V)) :
    Dict.under table (tuplesSent (batchEmission w cfg statements k out)) =
      loadTuples (Dict.under table (tagged w cfg k (rowsOf out))) := by
  have hnil : ∀ t : String, (fun _ rows => loadTuples rows) t ([] : List (Row V)) = [] :=
    fun _ => rfl
  calc Dict.under table (tuplesSent (batchEmission w cfg statements k out))
      = Dict.under table ((Dict.group (tagged w cfg k (rowsOf out))).entries.flatMap fun p =>
          (loadTuples p.2).map fun x => (p.1, x)) := by
        rw [batchEmission, tuplesSent_flatMap]
        simp only [tuplesSent_statements]
    _ = loadTuples (Dict.under table (tagged w cfg k (rowsOf out))) := by
        rw [Dict.under_flatMap hnil, Dict.getD_group]

lemma encodes_emission (table : String) (k : ℕ) (ps : List (List (Item V) × ℕ))
    (hall : ∀ p ∈ ps, ∃ out, transform w cfg p.2 p.1 = .ok out) :
    List.Forall₂ (fun (p : List (Option String) × List (Option V)) row => Encodes p.1 p.2 row)
      (Dict.under table (tuplesSent (emission w cfg statements k ps)))
      (Dict.under table (tagged w cfg k (rowsOf (transformed w cfg ps)))) := by
  induction ps generalizing k with
  | nil => exact List.Forall₂.nil
  | cons p ps ih =>
    obtain ⟨out, hout⟩ := hall p List.mem_cons_self
    have hrest := ih (k + (rowsOf out).length) fun q hq => hall q (List.mem_cons_of_mem _ hq)
    have hrows : rowsOf (transformed w cfg (p :: ps)) =
        rowsOf out ++ rowsOf (transformed w cfg ps) := by
      simp [transformed, rowsOf, hout, Except.toOption]
    have hsent : emission w cfg statements k (p :: ps) = batchEmission w cfg statements k out ++
        emission w cfg statements (k + (rowsOf out).length) ps := by
      rw [emission, hout]
    rw [hsent, tuplesSent_append, Dict.under_append, under_batchEmission, hrows, tagged_append,
      Dict.under_append]
    exact List.rel_append (encodes_loadTuples _) hrest

/-- **Loading is exact.** A run that reports success has read the file to its end, and has
sent to each table exactly the rows the transform returned for it, in file order, each as
one tuple that says what its row says. -/
theorem execute_exact (w : World V) (cfg : TaskConfig) (file : FileView V) (s : State V)
    (h : (execute w cfg file s).1.status = .success) :
    let ps := (stream w.ops file cfg).batches.zipIdx
    (stream w.ops file cfg).batches.flatten = (records w.ops file cfg "item").items ∧
    (∀ p ∈ ps, ∃ out, transform w cfg p.2 p.1 = .ok out) ∧
    ∃ sent, (execute w cfg file s).2.sent = s.sent ++ sent ∧
      ∀ table, List.Forall₂ (fun (p : List (Option String) × List (Option V)) row =>
          Encodes p.1 p.2 row)
        (Dict.under table (tuplesSent sent))
        (Dict.under table (tagged w cfg s.clockReads (rowsOf (transformed w cfg ps)))) := by
  obtain ⟨P, hP, -, hok⟩ := (sentLog w).execute cfg file s
  obtain ⟨rfl, hfail, hall⟩ := hok h
  exact ⟨batches_flatten _ _ hfail, hall, _, hP, fun table => encodes_emission table _ _ hall⟩

/-! ### A small file -/

/-- Strings as values, dates of the form `2024-05-01`, and a database that takes
everything. -/
def smallWorld : World String where
  ops := ⟨fun s => s ≠ "", id⟩
  strptimeYm fmt s :=
    let cs := s.toList
    if fmt = "%Y-%m-%d" ∧ cs.length = 10 then some (String.ofList (cs.take 4 ++ (cs.drop 5).take 2))
    else none
  now _ := "202406"
  db _ := .ok 1
  sandbox _ batch := .ok batch
  elapsedMs := 7

def smallTask : TaskConfig where
  taskId := "t"
  name := "t"
  monitorFolder := "/in"
  fileExtensions := [".csv"]
  batchSize := 2
  transformerModule := ""
  transformerFunction := ""
  baseTable := "b"
  partitionField := "day"

def smallRow (cells : List (String × String)) : Row String :=
  Dict.ofPairs (cells.map fun c => (some c.1, some c.2))

/-- Three rows of two months, with different keys, in two batches. -/
def smallFile : FileView String where
  path := "/in/x.csv"
  size := 60
  ext := ".csv"
  csv _ := ⟨[smallRow [("id", "1"), ("day", "2024-05-01")],
    smallRow [("id", "2"), ("day", "2024-04-30")],
    smallRow [("id", "3"), ("day", "2024-05-02"), ("note", "x")]], none⟩

theorem execute_exact_smallFile :
    Dict.under "b_202405" (tagged smallWorld smallTask 0 (rowsOf (transformed smallWorld smallTask
        (stream smallWorld.ops smallFile smallTask).batches.zipIdx))) =
      [smallRow [("id", "1"), ("day", "2024-05-01")],
        smallRow [("id", "3"), ("day", "2024-05-02"), ("note", "x")]] ∧
    ∃ sent, (execute smallWorld smallTask smallFile {}).2.sent = [] ++ sent ∧
      ∀ table, List.Forall₂ (fun (p : List (Option String) × List (Option String)) row =>
          Encodes p.1 p.2 row)
        (Dict.under table (tuplesSent sent))
        (Dict.under table (tagged smallWorld smallTask 0 (rowsOf (transformed smallWorld smallTask
          (stream smallWorld.ops smallFile smallTask).batches.zipIdx)))) := by
  have hok : (execute smallWorld smallTask smallFile {}).1.status = .success := by
    decide +kernel
  have h := execute_exact smallWorld smallTask smallFile {} hok
  exact ⟨by decide +kernel, h.2.2⟩

end Tdcs.Pipeline
