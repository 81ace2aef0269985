import Mathlib.Tactic
import Tdcs.LoadExact

/-!
The counts of a result: those `execute` keeps batch by batch, and those of the quality report,
which come from the error rows it collects.
-/

namespace Tdcs.Pipeline

open Tdcs.Lib Tdcs.Extractor

variable {V : Type*} (w : World V) (cfg : TaskConfig)

/-- The counters of `execute` and its `error_rows`. -/
structure Counts (V : Type*) where
  raw : ℕ
  valid : ℕ
  error : ℤ
  errorRows : List (Row V)

def State.counts (s : State V) : Counts V := ⟨s.rawCount, s.validCount, s.errorCount, s.errorRows⟩

/-- What the transform returns for a batch, or nothing where it raises. -/
def returned (p : List (Item V) × ℕ) : List (Item V) := (transform w cfg p.2 p.1).toOption.getD []

/-- What a batch and the output of its transform add to the counters. -/
def Counts.add (batch out : List (Item V)) (c : Counts V) : Counts V where
  raw := c.raw + batch.length
  valid := c.valid + (rowsOf out).length
  error := c.error + (batch.length - (rowsOf out).length)
  errorRows := c.errorRows ++ (splitRows batch out).2

/-! ### What touches the counters -/

section keeps

variable {w cfg}

lemma keeps_dbCall : Prog.Keeps State.counts (dbCall w) := fun s => by simp [State.counts]

lemma keeps_executemany (stmt : Statement V) : Prog.Keeps State.counts (executemany w stmt) :=
  fun s => by simp [State.counts]

lemma keeps_commit (load : Load V) : Prog.Keeps State.counts (commit w load) := by
  intro s
  unfold commit
  rcases w.db s.dbCalls with n | ⟨e, _ | _⟩ <;> rfl

lemma keeps_ensureTableExists (table : String) :
    Prog.Keeps State.counts (ensureTableExists w table) := by
  refine (Prog.keeps_read _).andThen fun created => ?_
  split_ifs
  · exact Prog.keeps_ret ()
  · split
    · exact Prog.keeps_raise _
    · refine keeps_dbCall.andThen fun _ => keeps_dbCall.andThen fun _ => keeps_dbCall.andThen
        fun _ => ?_
      exact Prog.keeps_update fun _ => rfl

lemma keeps_executeChunks (stmts : List (Statement V)) :
    Prog.Keeps State.counts (executeChunks w stmts) := by
  induction stmts with
  | nil => exact Prog.keeps_ret 0
  | cons stmt stmts ih =>
    exact (keeps_executemany stmt).andThen fun _ => ih.andThen fun _ => Prog.keeps_ret _

lemma keeps_loadBatch (table : String) (rows : List (Row V)) :
    Prog.Keeps State.counts (loadBatch w table rows) := by
  unfold loadBatch
  split_ifs
  · exact Prog.keeps_ret 0
  · exact Prog.keeps_raise _
  · exact keeps_dbCall.andThen fun _ => (keeps_executeChunks _).andThen fun _ =>
      (keeps_commit _).andThen fun _ => Prog.keeps_ret _

lemma keeps_loadGroup (p : String × List (Row V)) : Prog.Keeps State.counts (loadGroup w p) := by
  refine (keeps_ensureTableExists p.1).andThen fun _ => ?_
  refine ((keeps_loadBatch p.1 p.2).handle fun e => ?_).andThen fun _ => Prog.keeps_ret ()
  split_ifs
  · exact Prog.keeps_raise _
  · exact Prog.keeps_raise _

lemma counts_turn {p : List (Item V) × ℕ} (s : State V) (hok : (turn w cfg p s).1 = .ok ()) :
    (∃ out, transform w cfg p.2 p.1 = .ok out) ∧
      (turn w cfg p s).2.counts = s.counts.add p.1 (returned w cfg p) := by
  rcases h : transform w cfg p.2 p.1 with e | out
  · -- the transform raises
    simp [turn, Prog.andThen, Prog.update, Prog.ofExcept, h] at hok
  · have hout : returned w cfg p = out := by rw [returned, h]; rfl
    have hkeeps : Prog.Keeps State.counts (Prog.andThen (groupByTable w cfg (splitRows p.1 out).1)
        fun grouped => Prog.forEach (loadGroup w) grouped.entries) :=
      Prog.Keeps.andThen (fun _ => rfl) fun _ => Prog.Keeps.forEach fun p _ => keeps_loadGroup p
    refine ⟨⟨out, rfl⟩, ?_⟩
    rw [hout]
    simp only [turn, Prog.andThen, Prog.update, Prog.ofExcept, h]
    split_ifs with hempty
    · simp [Prog.ret, State.counts, Counts.add, splitRows_fst]
    · refine (hkeeps _).trans ?_
      simp [State.counts, Counts.add, splitRows_fst]

end keeps

/-! ### Both counts of the error rows -/

/-- The rows of the output beyond the end of the batch. -/
def surplusRows (batch out : List (Item V)) : List (Row V) := rowsOf (out.drop batch.length)

/-- How many `None` items of the batch have no row of the output at their place. -/
def nonesDropped : List (Item V) → List (Item V) → ℕ
  | [], _ => 0
  | none :: batch, [] => nonesDropped batch [] + 1
  | none :: batch, none :: out => nonesDropped batch out + 1
  | _ :: batch, out => nonesDropped batch out.tail

lemma rowsOf_cons_none (out : List (Item V)) : rowsOf (none :: out) = rowsOf out := rfl

lemma rowsOf_cons_some (row : Row V) (out : List (Item V)) :
    rowsOf (some row :: out) = row :: rowsOf out := rfl

lemma rowsOf_append (out out' : List (Item V)) : rowsOf (out ++ out') = rowsOf out ++ rowsOf out' :=
  List.flatMap_append

/-- Every item of the batch has a row at its place, or is an error row, or is a `None` nobody
counts; every row of the output is at the place of an item, or beyond the batch. -/
lemma length_splitRows (batch out : List (Item V)) :
    batch.length + (surplusRows batch out).length =
      (rowsOf out).length + (splitRows batch out).2.length + nonesDropped batch out := by
  induction batch generalizing out with
  | nil => simp [surplusRows, splitRows, nonesDropped]
  | cons orig batch ih =>
    rcases out with _ | ⟨_ | row, out⟩
    · have h := ih []
      cases orig <;> simp [surplusRows, splitRows, nonesDropped, rowsOf] at h ⊢ <;> omega
    · have h := ih out
      cases orig <;>
        simp [surplusRows, splitRows, nonesDropped, rowsOf_cons_none] at h ⊢ <;> omega
    · have h := ih out
      cases orig <;>
        simp [surplusRows, splitRows, nonesDropped, rowsOf_cons_some] at h ⊢ <;> omega

lemma length_surplusRows_le (batch out : List (Item V)) :
    (surplusRows batch out).length ≤ (rowsOf out).length := by
  have h : rowsOf out = rowsOf (out.take batch.length) ++ surplusRows batch out := by
    rw [surplusRows, ← rowsOf_append, List.take_append_drop]
  rw [h, List.length_append]
  omega

variable (ps : List (List (Item V) × ℕ))

def surplus : ℕ := (ps.map fun p => (surplusRows p.1 (returned w cfg p)).length).sum

def dropped : ℕ := (ps.map fun p => nonesDropped p.1 (returned w cfg p)).sum

variable {w cfg ps}

/-- What the loop adds up: both counts of the rows that went wrong differ by the surplus rows on
the one side and the dropped `None` items on the other. -/
lemma foldl_add (c : Counts V) :
    let c' := ps.foldl (fun c p => c.add p.1 (returned w cfg p)) c
    c'.valid = c.valid + (rowsOf (transformed w cfg ps)).length ∧
    c'.error - c.error = (c'.raw - c.raw : ℤ) - (c'.valid - c.valid : ℤ) ∧
    c'.raw + surplus w cfg ps + c.valid + c.errorRows.length =
      c.raw + c'.valid + c'.errorRows.length + dropped w cfg ps ∧
    surplus w cfg ps + c.valid ≤ c'.valid := by
  induction ps generalizing c with
  | nil => simp [transformed, rowsOf, surplus, dropped]
  | cons p ps ih =>
    obtain ⟨hvalid, herror, hrows, hle⟩ := ih (c.add p.1 (returned w cfg p))
    have hbatch := length_splitRows p.1 (returned w cfg p)
    have hsur := length_surplusRows_le p.1 (returned w cfg p)
    have htr : rowsOf (transformed w cfg (p :: ps)) =
        rowsOf (returned w cfg p) ++ rowsOf (transformed w cfg ps) := by
      rw [← rowsOf_append]
      rfl
    have hs : surplus w cfg (p :: ps) =
        (surplusRows p.1 (returned w cfg p)).length + surplus w cfg ps := by simp [surplus]
    have hd : dropped w cfg (p :: ps) =
        nonesDropped p.1 (returned w cfg p) + dropped w cfg ps := by simp [dropped]
    simp only [List.foldl_cons, htr, hs, hd, List.length_append]
    simp only [Counts.add, List.length_append] at hvalid herror hrows hle ⊢
    refine ⟨?_, ?_, ?_, ?_⟩
    · omega
    · push_cast at herror ⊢
      omega
    · omega
    · omega

/-! ### The result -/

/-- The counts of a result whose transforms returned so many rows. -/
structure Consistent (result : PipelineResult) (rows : ℕ) : Prop where
  nonneg : 0 ≤ result.errorCount
  valid : result.validCount = rows
  report : ∀ report, result.qualityReport = some report →
    (report.errorRows : ℤ) = result.errorCount ∧ report.validRows = result.validCount

lemma body_of_ok {st : Stream V} {s : State V} (h : (body w cfg st s).1 = .ok ()) :
    (Prog.forEach (turn w cfg) st.batches.zipIdx s).1 = .ok () ∧
      (body w cfg st s).2 = (Prog.forEach (turn w cfg) st.batches.zipIdx s).2 := by
  rw [body, Prog.andThen] at h ⊢
  rcases hrun : Prog.forEach (turn w cfg) st.batches.zipIdx s with ⟨e | u, s'⟩
  · rw [hrun] at h
    cases h
  · rw [hrun] at h
    rcases hfail : st.fail with _ | e
    · exact ⟨rfl, rfl⟩
    · simp [hfail, Prog.raise] at h

lemma counts_execute {file : FileView V} {s : State V}
    (h : (execute w cfg file s).1.status = .success) :
    (execute w cfg file s).2.counts =
      (stream w.ops file cfg).batches.zipIdx.foldl (fun c p => c.add p.1 (returned w cfg p))
        ⟨0, 0, 0, []⟩ := by
  obtain ⟨hloop, hstate⟩ := body_of_ok (success_iff.1 h)
  have hturns := Prog.forEach_advances (fun p _ s hok => counts_turn (p := p) s hok) _ hloop
  calc (execute w cfg file s).2.counts = _ := congrArg State.counts hstate
    _ = _ := hturns.2

/-- **When the counts agree.** The result of a run that succeeds counts its rows and its errors
as its quality report does exactly if there are as many rows beyond the ends of the batches as
`None` items without a row at their place. -/
theorem consistent_iff (w : World V) (cfg : TaskConfig) (file : FileView V) (s : State V)
    (h : (execute w cfg file s).1.status = .success) :
    let ps := (stream w.ops file cfg).batches.zipIdx
    Consistent (execute w cfg file s).1 (rowsOf (transformed w cfg ps)).length ↔
      surplus w cfg ps = dropped w cfg ps := by
  intro ps
  have hcounts := counts_execute h
  obtain ⟨hvalid, herror, hrows, hle⟩ := @foldl_add V w cfg ps ⟨0, 0, 0, []⟩
  rw [← hcounts] at hvalid herror hrows hle
  set s' := (execute w cfg file s).2
  simp only [State.counts, List.length_nil] at hvalid herror hrows hle
  have hreport : (execute w cfg file s).1.qualityReport =
      if 0 < s'.rawCount then some (calculate s'.errorRows s'.rawCount) else none := rfl
  constructor
  · intro hc
    have hnonneg : 0 ≤ s'.errorCount := hc.nonneg
    by_cases hraw : 0 < s'.rawCount
    · have hagree := (hc.report _ (by rw [hreport, if_pos hraw])).1
      have : (s'.errorRows.length : ℤ) = s'.errorCount := hagree
      omega
    · omega
  · intro hbal
    have herr : s'.errorCount = s'.errorRows.length := by omega
    refine ⟨?_, ?_, ?_⟩
    · show 0 ≤ s'.errorCount
      omega
    · show s'.validCount = _
      omega
    · intro report hr
      rw [hreport] at hr
      split_ifs at hr
      cases hr
      refine ⟨herr.symm, ?_⟩
      show ((s'.rawCount : ℤ) - s'.errorRows.length : ℤ) = s'.validCount
      omega

/-- A transform that splits every row in two. -/
def splittingWorld : World String :=
    { smallWorld with sandbox := fun _ batch => .ok (batch ++ batch) }

def splittingTask : TaskConfig := { smallTask with transformerModule := "m" }

theorem consistent_iff_smallFile :
    Consistent (execute smallWorld smallTask smallFile {}).1
        (rowsOf (transformed smallWorld smallTask
          (stream smallWorld.ops smallFile smallTask).batches.zipIdx)).length ↔
      surplus smallWorld smallTask (stream smallWorld.ops smallFile smallTask).batches.zipIdx =
        dropped smallWorld smallTask (stream smallWorld.ops smallFile smallTask).batches.zipIdx :=
  consistent_iff smallWorld smallTask smallFile {} (by decide +kernel)

/-- Three rows that become six: the error count is three below zero. -/
theorem not_consistent_splitting :
    ¬ ∀ (w : World String) (cfg : TaskConfig) (file : FileView String) (s : State String),
      (execute w cfg file s).1.status = .success →
      Consistent (execute w cfg file s).1
        (rowsOf (transformed w cfg (stream w.ops file cfg).batches.zipIdx)).length := by
  intro h
  have hc := h splittingWorld splittingTask smallFile {} (by decide +kernel)
  have hneg : (execute splittingWorld splittingTask smallFile {}).1.errorCount = -3 := by
    decide +kernel
  have hnonneg := hc.nonneg
  omega

end Tdcs.Pipeline
