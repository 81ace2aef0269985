import Tdcs.Lib.FirstWins
import Tdcs.LoadExact

/-!
Processing a file again after an attempt that broke off.

A table is a list of stored rows with a unique key; `INSERT IGNORE` keeps the row that is
there. The loads of a file come in an order fixed by the file, so what an earlier attempt
committed is a beginning of what the next one loads.
-/

namespace Tdcs.Pipeline

open Tdcs.Lib Tdcs.Lib.FirstWins Tdcs.Extractor

variable {V R K : Type*} [DecidableEq K]

/-- The target tables: what a tuple under its columns is stored as, and the unique key. -/
structure Schema (V R K : Type*) where
  store : String → List (Option String) → List (Option V) → R
  key : String → R → K

/-- The rows of each table. -/
abbrev Contents (R : Type*) := String → List R

def Schema.conflict (sc : Schema V R K) (table : String) (stored r : R) : Bool :=
  sc.key table stored = sc.key table r

/-- The rows a load stores, as far as their keys are new. -/
def Schema.stored (sc : Schema V R K) (load : Load V) : List R :=
  (loadTuples load.rows).map fun p => sc.store load.table p.1 p.2

/-- One committed load: `INSERT IGNORE`, tuple by tuple. -/
def Schema.apply (sc : Schema V R K) (db : Contents R) (load : Load V) : Contents R :=
  Function.update db load.table
    (insertAll (sc.conflict load.table) (db load.table) (sc.stored load))

def Schema.applyAll (sc : Schema V R K) (db : Contents R) (loads : List (Load V)) : Contents R :=
  loads.foldl sc.apply db

/-- The loads a run of `execute` commits. -/
def attempt (w : World V) (cfg : TaskConfig) (file : FileView V) (s : State V) : List (Load V) :=
  (execute w cfg file s).2.committed.drop s.committed.length

/-- The transform, where it returns, returns `f` of its batch. -/
def Deterministic (w : World V) (f : List (Item V) → List (Item V)) : Prop :=
  ∀ i batch out, w.sandbox i batch = .ok out → out = f batch

/-- The rows of a batch, as the task transforms them. -/
def outputOf (cfg : TaskConfig) (f : List (Item V) → List (Item V)) (batch : List (Item V)) :
    List (Row V) :=
  rowsOf (if cfg.transformerModule = "" then batch else f batch)

/-! ### Tables -/

/-- What all loads store into one table. -/
def Schema.storedIn (sc : Schema V R K) (table : String) (loads : List (Load V)) : List R :=
  loads.flatMap fun load => if load.table = table then sc.stored load else []

lemma Schema.applyAll_table (sc : Schema V R K) (db : Contents R) (loads : List (Load V))
    (table : String) : sc.applyAll db loads table =
      insertAll (sc.conflict table) (db table) (sc.storedIn table loads) := by
  have hfold : sc.applyAll db loads =
      (loads.map fun load => (load.table, sc.stored load)).foldl (insertAt sc.conflict) db := by
    rw [List.foldl_map]
    rfl
  rw [hfold, foldl_insertAt, List.flatMap_map, Schema.storedIn]

lemma Schema.applyAll_replay (sc : Schema V R K) (db : Contents R) {P L : List (Load V)}
    (h : P <+: L) : sc.applyAll (sc.applyAll db P) L = sc.applyAll db L := by
  funext table
  have hpre : sc.storedIn table P <+: sc.storedIn table L := by
    obtain ⟨Q, rfl⟩ := h
    exact ⟨sc.storedIn table Q, List.flatMap_append.symm⟩
  have hrefl : ∀ r, sc.conflict table r r = true := fun r => by simp [Schema.conflict]
  rw [sc.applyAll_table, sc.applyAll_table, sc.applyAll_table, insertAll_replay hrefl hpre]

/-! ### The order of the loads -/

section order

variable {w w' : World V} {cfg : TaskConfig} {f : List (Item V) → List (Item V)}

lemma rowSuffix_congr (hops : w.ops = w'.ops) (hparse : w.strptimeYm = w'.strptimeYm)
    (row : Row V) : rowSuffix w cfg row = rowSuffix w' cfg row := by
  unfold rowSuffix
  rw [hops, hparse]

lemma rowsOf_of_ok (hdet : Deterministic w f) {p : List (Item V) × ℕ} {out : List (Item V)}
    (h : transform w cfg p.2 p.1 = .ok out) : rowsOf out = outputOf cfg f p.1 := by
  unfold transform at h
  unfold outputOf
  split_ifs at h ⊢
  · cases h; rfl
  · rw [hdet _ _ _ h]

lemma batchEmission_congr {δ : Type*} (E : String → List (Row V) → List δ)
    (hops : w.ops = w'.ops) (hparse : w.strptimeYm = w'.strptimeYm) {out out' : List (Item V)}
    (hout : rowsOf out = rowsOf out')
    (hsuffix : ∀ row ∈ rowsOf out, (rowSuffix w cfg row).isSome = true) (k k' : ℕ) :
    batchEmission w cfg E k out = batchEmission w' cfg E k' out' := by
  have hcongr : ∀ row, rowSuffix w cfg row = rowSuffix w' cfg row := rowSuffix_congr hops hparse
  have htagged : tagged w cfg k (rowsOf out) = tagged w' cfg k' (rowsOf out) := by
    rw [tagged_of_suffix w cfg hsuffix k "", tagged_of_suffix w' cfg (fun row hrow => by
      rw [← hcongr]; exact hsuffix row hrow) k' ""]
    refine List.map_congr_left fun row _ => ?_
    rw [resolveTable, resolveTable, hcongr]
  rw [batchEmission, batchEmission, htagged, hout]

/-- What any attempt loads is a beginning of what an attempt loads whose transforms all
return. -/
lemma emission_le {δ : Type*} (E : String → List (Row V) → List δ)
    (hops : w.ops = w'.ops) (hparse : w.strptimeYm = w'.strptimeYm) (hdet : Deterministic w f)
    (hdet' : Deterministic w' f) (ps : List (List (Item V) × ℕ))
    (hok : ∀ p ∈ ps, ∃ out, transform w' cfg p.2 p.1 = .ok out)
    (hsuffix : ∀ p ∈ ps, ∀ row ∈ outputOf cfg f p.1, (rowSuffix w cfg row).isSome = true)
    (k k' : ℕ) : emission w cfg E k ps <+: emission w' cfg E k' ps := by
  induction ps generalizing k k' with
  | nil => exact List.prefix_refl _
  | cons p ps ih =>
    obtain ⟨out', hout'⟩ := hok p List.mem_cons_self
    rw [emission, emission, hout']
    rcases hout : transform w cfg p.2 p.1 with e | out
    · exact List.nil_prefix
    · have hrows := rowsOf_of_ok hdet hout
      have hsame : rowsOf out = rowsOf out' := hrows.trans (rowsOf_of_ok hdet' hout').symm
      have hbatch := batchEmission_congr E hops hparse hsame
        (fun row hrow => hsuffix p List.mem_cons_self row (hrows ▸ hrow)) k k'
      dsimp only
      rw [hbatch]
      exact (List.prefix_append_right_inj _).mpr
        (ih (fun q hq => hok q (List.mem_cons_of_mem _ hq))
          (fun q hq => hsuffix q (List.mem_cons_of_mem _ hq)) _ _)

end order

lemma attempt_execute (w : World V) (cfg : TaskConfig) (file : FileView V) (s : State V) :
    attempt w cfg file s <+:
        emission w cfg loads s.clockReads (stream w.ops file cfg).batches.zipIdx ∧
      ((execute w cfg file s).1.status = .success →
        attempt w cfg file s =
          emission w cfg loads s.clockReads (stream w.ops file cfg).batches.zipIdx ∧
        ∀ p ∈ (stream w.ops file cfg).batches.zipIdx,
          ∃ out, transform w cfg p.2 p.1 = .ok out) := by
  obtain ⟨P, hP, hpre, hok⟩ := (committedLog w).execute cfg file s
  have hattempt : attempt w cfg file s = P := by rw [attempt, hP, List.drop_left]
  rw [hattempt]
  exact ⟨hpre, fun hs => ⟨(hok hs).1, (hok hs).2.2⟩⟩

/-- **Reprocessing is idempotent.** Let every row carry a partition value that can be
parsed. If an earlier attempt committed the loads `P` before it broke off, a run that then
succeeds leaves the tables as a run that succeeds without the earlier attempt does. -/
theorem reprocess_idempotent (sc : Schema V R K) (cfg : TaskConfig) (file : FileView V)
    (f : List (Item V) → List (Item V)) (w₁ w₂ w₃ : World V)
    (hops : w₁.ops = w₂.ops ∧ w₂.ops = w₃.ops)
    (hparse : w₁.strptimeYm = w₂.strptimeYm ∧ w₂.strptimeYm = w₃.strptimeYm)
    (hdet : Deterministic w₁ f ∧ Deterministic w₂ f ∧ Deterministic w₃ f)
    (hsuffix : ∀ batch ∈ (stream w₂.ops file cfg).batches, ∀ row ∈ outputOf cfg f batch,
      (rowSuffix w₂ cfg row).isSome = true)
    (s₁ s₂ s₃ : State V) (P : List (Load V)) (hP : P <+: attempt w₁ cfg file s₁)
    (h₂ : (execute w₂ cfg file s₂).1.status = .success)
    (h₃ : (execute w₃ cfg file s₃).1.status = .success) (db : Contents R) :
    sc.applyAll (sc.applyAll db P) (attempt w₂ cfg file s₂) =
      sc.applyAll db (attempt w₃ cfg file s₃) := by
  obtain ⟨hpre₁, -⟩ := attempt_execute w₁ cfg file s₁
  obtain ⟨heq₂, hok₂⟩ := (attempt_execute w₂ cfg file s₂).2 h₂
  obtain ⟨heq₃, hok₃⟩ := (attempt_execute w₃ cfg file s₃).2 h₃
  rw [hops.1] at hpre₁
  rw [← hops.2] at heq₃ hok₃
  have hps : ∀ p ∈ (stream w₂.ops file cfg).batches.zipIdx, ∀ row ∈ outputOf cfg f p.1,
      (rowSuffix w₂ cfg row).isSome = true := fun p hp =>
    hsuffix p.1 (List.fst_mem_of_mem_zipIdx hp)
  have h12 := emission_le loads hops.1 hparse.1 hdet.1 hdet.2.1 _ hok₂
    (fun p hp row hrow => by rw [rowSuffix_congr hops.1 hparse.1]; exact hps p hp row hrow)
    s₁.clockReads s₂.clockReads
  have h23 := emission_le loads hops.2 hparse.2 hdet.2.1 hdet.2.2 _ hok₃ hps
    s₂.clockReads s₃.clockReads
  have h32 := emission_le loads hops.2.symm hparse.2.symm hdet.2.2 hdet.2.1 _ hok₂
    (fun p hp row hrow => by rw [← rowSuffix_congr hops.2 hparse.2]; exact hps p hp row hrow)
    s₃.clockReads s₂.clockReads
  -- each run emits no less than the other
  have hsame := h23.eq_of_length (le_antisymm h23.length_le h32.length_le)
  have hreplay : P <+: attempt w₂ cfg file s₂ := by
    rw [heq₂]
    exact hP.trans (hpre₁.trans h12)
  rw [sc.applyAll_replay db hreplay, heq₂, heq₃, hsame]

/-- A database that runs into a deadlock at its call `n`. -/
def deadlockAt (n i : ℕ) : DbAnswer :=
  if i = n then .raise (.other "OperationalError" "Deadlock found" (some 1213)) false else .ok 1

/-- The small world, with a deadlock when the second table of the first batch is loaded. -/
def deadlockWorld : World String := { smallWorld with db := deadlockAt 10 }

/-- Tables that store the cells of a row, with the unique key `id`. -/
def keyedById : Schema String (List (Option String × Option String)) (Option String) where
  store _ columns tuple := columns.zip tuple
  key _ r := (r.lookup (some "id")).join

theorem reprocess_idempotent_deadlock :
    (execute deadlockWorld smallTask smallFile {}).1.status = .retry ∧
    (attempt deadlockWorld smallTask smallFile {}).length = 1 ∧
    keyedById.applyAll (keyedById.applyAll (fun _ => [])
        (attempt deadlockWorld smallTask smallFile {}))
        (attempt smallWorld smallTask smallFile {}) =
      keyedById.applyAll (fun _ => []) (attempt smallWorld smallTask smallFile {}) := by
  have hok : (execute smallWorld smallTask smallFile {}).1.status = .success := by
    decide +kernel
  have hdet : ∀ i batch out, smallWorld.sandbox i batch = .ok out → out = id batch :=
    fun _ _ _ h => by cases h; rfl
  refine ⟨by decide +kernel, by decide +kernel, ?_⟩
  exact reprocess_idempotent keyedById smallTask smallFile id deadlockWorld smallWorld smallWorld
    ⟨rfl, rfl⟩ ⟨rfl, rfl⟩ ⟨hdet, hdet, hdet⟩ (by decide +kernel) {} {} {} _ (List.prefix_refl _)
    hok hok _

end Tdcs.Pipeline
