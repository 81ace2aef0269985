import Mathlib.Tactic
import Tdcs.Replay
import Tdcs.PipelineCalls

/-!
What the batch size has to do with what is stored.

The columns of a statement are the keys of the rows that share it. A key that a row lacks is
`NULL` where some row of its batch has it, and the declared default of the column where none has.
-/

namespace Tdcs.Pipeline

open Tdcs.Lib Tdcs.Lib.FirstWins Tdcs.Extractor

variable {V : Type*}

/-- A stored row: what stands in each column, `none` for `NULL`. -/
abbrev StoredRow (V : Type*) := String → Option V

/-- The declared defaults of the tables' columns. -/
abbrev Defaults (V : Type*) := String → StoredRow V

/-- A tuple as a table stores it: the columns outside the statement take their defaults. -/
def storeTuple (default : StoredRow V) (columns : List (Option String)) (tuple : List (Option V)) :
    StoredRow V :=
  fun c => ((columns.zip tuple).lookup (some c)).getD (default c)

def storedRows (default : Defaults V) (load : Load V) : List (StoredRow V) :=
  (loadTuples load.rows).map fun p => storeTuple (default load.table) p.1 p.2

/-- The tables behind some loads, by `INSERT IGNORE`: which rows conflict with a stored one is up
to the unique keys of their table. -/
def tablesAfter (default : Defaults V) (conflict : String → StoredRow V → StoredRow V → Bool)
    (db : Contents (StoredRow V)) (loads : List (Load V)) : Contents (StoredRow V) :=
  loads.foldl (fun db load => insertAt conflict db (load.table, storedRows default load)) db

/-- The task without a transformer, with batches of `b` rows. -/
def plain (cfg : TaskConfig) (b : ℤ) : TaskConfig :=
  { cfg with batchSize := b, transformerModule := "" }

/-- The outside with a database of its own. -/
def World.answering (w : World V) (answers : ℕ → DbAnswer) : World V := { w with db := answers }

/-- The rows of the file with the tables they go to, from the state `s` on. -/
def routedRows (w : World V) (cfg : TaskConfig) (file : FileView V) (s : State V) :
    List (String × Row V) :=
  tagged w cfg s.clockReads (rowsOf (records w.ops file cfg "item").items)

/-- **Independence of the batch size**: two runs that succeed, from one state and with any two
batch sizes, leave the same tables, whatever stood there and whatever their unique keys are. -/
def BatchSizeFree (default : Defaults V) (w : World V) (cfg : TaskConfig) (file : FileView V)
    (s : State V) : Prop :=
  ∀ (conflict : String → StoredRow V → StoredRow V → Bool) (db : Contents (StoredRow V))
    (b₁ b₂ : ℤ) (answers₁ answers₂ : ℕ → DbAnswer), 1 ≤ b₁ → 1 ≤ b₂ →
    (execute (w.answering answers₁) (plain cfg b₁) file s).1.status = .success →
    (execute (w.answering answers₂) (plain cfg b₂) file s).1.status = .success →
    tablesAfter default conflict db (attempt (w.answering answers₁) (plain cfg b₁) file s) =
      tablesAfter default conflict db (attempt (w.answering answers₂) (plain cfg b₂) file s)

/-- The router and the loader refuse none of these rows. -/
def Accepted (created : List String) (routed : List (String × Row V)) : Prop :=
  ∀ p ∈ routed, (p.1 ∈ created ∨ validateTableName p.1 = none) ∧ none ∉ p.2.keys

/-- Some run can succeed. -/
def Loadable (w : World V) (cfg : TaskConfig) (file : FileView V) (s : State V) : Prop :=
  (records w.ops file cfg "item").fail = none ∧ Accepted s.created (routedRows w cfg file s)

/-- A column that one row of a table has and another lacks has the default `NULL`. -/
def NoClash (default : Defaults V) (routed : List (String × Row V)) : Prop :=
  ∀ table row row' c, (table, row) ∈ routed → (table, row') ∈ routed → some c ∈ row.keys →
    some c ∉ row'.keys → default table c = none

/-! ### Stored rows -/

/-- A row as a table stores it when it is loaded alone. -/
def storeAlone (default : StoredRow V) (row : Row V) : StoredRow V :=
  fun c => if row.keys.contains (some c) then getCell row (some c) else default c

lemma storeAlone_apply (default : StoredRow V) (row : Row V) (c : String) :
    storeAlone default row c = if some c ∈ row.keys then getCell row (some c) else default c := by
  simp [storeAlone]

lemma lookup_zip_map (f : Option String → Option V) (columns : List (Option String))
    (c : Option String) :
    (columns.zip (columns.map f)).lookup c = if c ∈ columns then some (f c) else none := by
  induction columns with
  | nil => rfl
  | cons column columns ih =>
    rw [List.map_cons, List.zip_cons_cons, List.lookup_cons]
    by_cases h : c = column
    · subst h
      simp
    · have hbeq : (c == column) = false := by simpa using h
      rw [hbeq, ih]
      simp [h]

lemma storeTuple_apply (default : StoredRow V) (columns : List (Option String)) (row : Row V)
    (c : String) : storeTuple default columns (columns.map (getCell row)) c =
      if some c ∈ columns then getCell row (some c) else default c := by
  rw [storeTuple, lookup_zip_map]
  split_ifs with h
  · rfl
  · rfl

lemma storedRows_eq (default : Defaults V) (table : String) (rows : List (Row V)) :
    storedRows default ⟨table, rows⟩ = rows.map fun row =>
      storeTuple (default table) (unionKeys rows) ((unionKeys rows).map (getCell row)) := by
  rw [storedRows, loadTuples, prepareRows, List.map_map, List.map_map]
  rfl

lemma storedRows_of_noClash {default : Defaults V} {table : String} {rows : List (Row V)}
    (h : NoClash default (rows.map fun row => (table, row))) :
    storedRows default ⟨table, rows⟩ = rows.map (storeAlone (default table)) := by
  rw [storedRows_eq]
  refine List.map_congr_left fun row hrow => ?_
  funext c
  rw [storeTuple_apply, storeAlone_apply]
  by_cases hc : some c ∈ row.keys
  · rw [if_pos hc, if_pos (mem_unionKeys hrow hc)]
  · rw [if_neg hc]
    split_ifs with hunion
    · obtain ⟨row', hrow', hc'⟩ := mem_unionKeys_iff.1 hunion
      have hdefault :=
        h table row' row c (List.mem_map_of_mem hrow') (List.mem_map_of_mem hrow) hc' hc
      rw [hdefault, getCell_of_not_mem hc]
    · rfl

lemma NoClash.mono {default : Defaults V} {routed routed' : List (String × Row V)}
    (h : NoClash default routed) (hsub : ∀ p ∈ routed', p ∈ routed) : NoClash default routed' :=
  fun table row row' c hrow hrow' => h table row row' c (hsub _ hrow) (hsub _ hrow')

/-! ### The rows of a run -/

section run

variable {w : World V} {cfg : TaskConfig} {default : Defaults V}

/-- What some loads store, with the tables. -/
def storedPairs (default : Defaults V) (loads : List (Load V)) : List (String × StoredRow V) :=
  loads.flatMap fun load => (storedRows default load).map fun r => (load.table, r)

lemma storedPairs_append (L M : List (Load V)) :
    storedPairs default (L ++ M) = storedPairs default L ++ storedPairs default M :=
  List.flatMap_append

lemma storedPairs_loads (table : String) (rows : List (Row V)) :
    storedPairs default (loads table rows) =
      (storedRows default ⟨table, rows⟩).map fun r => (table, r) := by
  unfold loads storedPairs
  split_ifs with h
  · rw [List.isEmpty_iff.1 h]
    rfl
  · simp

lemma tablesAfter_apply (conflict : String → StoredRow V → StoredRow V → Bool)
    (db : Contents (StoredRow V)) (L : List (Load V)) (table : String) :
    tablesAfter default conflict db L table =
      insertAll (conflict table) (db table) (Dict.under table (storedPairs default L)) := by
  have hfold : tablesAfter default conflict db L =
      (L.map fun load => (load.table, storedRows default load)).foldl (insertAt conflict) db := by
    rw [List.foldl_map]
    rfl
  have hunder : ∀ L : List (Load V), Dict.under table (storedPairs default L) =
      L.flatMap fun load => if load.table = table then storedRows default load else [] := by
    intro L
    induction L with
    | nil => rfl
    | cons load L ih =>
      have hcons : storedPairs default (load :: L) =
          (storedRows default load).map (fun r => (load.table, r)) ++ storedPairs default L :=
        List.flatMap_cons
      rw [hcons, Dict.under_append, Dict.under_map_pair, ih, List.flatMap_cons]
  rw [hfold, foldl_insertAt, List.flatMap_map, hunder]

lemma under_storedPairs_batch (table : String) (k : ℕ) (out : List (Item V)) :
    Dict.under table (storedPairs default (batchEmission w cfg loads k out)) =
      storedRows default ⟨table, Dict.under table (tagged w cfg k (rowsOf out))⟩ := by
  have hnil : ∀ t : String, storedRows default ⟨t, []⟩ = [] := fun _ => rfl
  calc Dict.under table (storedPairs default (batchEmission w cfg loads k out))
      = Dict.under table ((Dict.group (tagged w cfg k (rowsOf out))).entries.flatMap fun p =>
          (storedRows default ⟨p.1, p.2⟩).map fun r => (p.1, r)) := by
        rw [batchEmission, storedPairs, List.flatMap_assoc]
        congr 2
        funext p
        exact storedPairs_loads p.1 p.2
    _ = storedRows default ⟨table, Dict.under table (tagged w cfg k (rowsOf out))⟩ := by
        rw [Dict.under_flatMap (E := fun t rows => storedRows default ⟨t, rows⟩) hnil,
          Dict.getD_group]

/-- No batch has a clash within itself. -/
def BatchesAgree (w : World V) (cfg : TaskConfig) (default : Defaults V) :
    ℕ → List (List (Item V) × ℕ) → Prop
  | _, [] => True
  | k, p :: ps => NoClash default (tagged w cfg k (rowsOf p.1)) ∧
      BatchesAgree w cfg default (k + (rowsOf p.1).length) ps

lemma transform_of_plain (h : cfg.transformerModule = "") (i : ℕ) (batch : List (Item V)) :
    transform w cfg i batch = .ok batch := by
  rw [transform, if_pos h]

lemma rowsOf_flatMap_cons (p : List (Item V) × ℕ) (ps : List (List (Item V) × ℕ)) :
    rowsOf ((p :: ps).flatMap Prod.fst) = rowsOf p.1 ++ rowsOf (ps.flatMap Prod.fst) := by
  simp [rowsOf]

lemma under_storedPairs_emission (hplain : cfg.transformerModule = "") (table : String) (k : ℕ)
    (ps : List (List (Item V) × ℕ)) (h : BatchesAgree w cfg default k ps) :
    Dict.under table (storedPairs default (emission w cfg loads k ps)) =
      (Dict.under table (tagged w cfg k (rowsOf (ps.flatMap Prod.fst)))).map
        (storeAlone (default table)) := by
  induction ps generalizing k with
  | nil => rfl
  | cons p ps ih =>
    obtain ⟨hbatch, hrest⟩ := h
    have hsub : ∀ q ∈ (Dict.under table (tagged w cfg k (rowsOf p.1))).map fun row => (table, row),
        q ∈ tagged w cfg k (rowsOf p.1) := by
      intro q hq
      obtain ⟨row, hrow, rfl⟩ := List.mem_map.1 hq
      exact Dict.mem_under.1 hrow
    have hstored := storedRows_of_noClash (hbatch.mono hsub)
    rw [emission, transform_of_plain hplain]
    dsimp only
    rw [storedPairs_append, Dict.under_append, under_storedPairs_batch, hstored, ih _ hrest,
      rowsOf_flatMap_cons, tagged_append, Dict.under_append, List.map_append]

lemma batchesAgree_of_noClash (k : ℕ) (ps : List (List (Item V) × ℕ))
    (h : NoClash default (tagged w cfg k (rowsOf (ps.flatMap Prod.fst)))) :
    BatchesAgree w cfg default k ps := by
  induction ps generalizing k with
  | nil => trivial
  | cons p ps ih =>
    rw [rowsOf_flatMap_cons, tagged_append] at h
    exact ⟨h.mono fun q hq => List.mem_append_left _ hq,
      ih _ (h.mono fun q hq => List.mem_append_right _ hq)⟩

lemma batchesAgree_of_single (k : ℕ) (ps : List (List (Item V) × ℕ))
    (h : ∀ p ∈ ps, ∃ item, p.1 = [item]) : BatchesAgree w cfg default k ps := by
  induction ps generalizing k with
  | nil => trivial
  | cons p ps ih =>
    refine ⟨?_, ih _ fun q hq => h q (List.mem_cons_of_mem _ hq)⟩
    obtain ⟨item, hitem⟩ := h p List.mem_cons_self
    rw [hitem]
    intro table row row' c hrow hrow' hc hc'
    cases item with
    | none => cases hrow
    | some r =>
      have hr : row = r := (Prod.ext_iff.1 (List.mem_singleton.1 hrow)).2
      have hr' : row' = r := (Prod.ext_iff.1 (List.mem_singleton.1 hrow')).2
      rw [hr] at hc
      rw [hr'] at hc'
      exact absurd hc hc'

/-! ### Which runs succeed -/

lemma accepted_iff (created : List String) (k : ℕ) (out : List (Item V)) :
    (∀ g ∈ groupsOf w cfg k out, GroupOk created g) ↔
      Accepted created (tagged w cfg k (rowsOf out)) := by
  constructor
  · intro h p hp
    have hgroup := h _ (Dict.exists_mem_group hp)
    refine ⟨hgroup.1, fun hnone => hgroup.2 ?_⟩
    exact mem_unionKeys (Dict.mem_under.2 hp) hnone
  · intro h g hg
    have hunder := Dict.under_of_mem_group hg
    obtain ⟨row, hrow⟩ := List.exists_mem_of_ne_nil _ (Dict.ne_nil_of_mem_group hg)
    rw [← hunder] at hrow
    refine ⟨(h _ (Dict.mem_under.1 hrow)).1, fun hnone => ?_⟩
    obtain ⟨row', hrow', hc⟩ := mem_unionKeys_iff.1 hnone
    rw [← hunder] at hrow'
    exact (h _ (Dict.mem_under.1 hrow')).2 hc

lemma passes_iff (hplain : cfg.transformerModule = "") (created : List String) (k : ℕ)
    (ps : List (List (Item V) × ℕ)) : Passes w cfg created k ps ↔
      Accepted created (tagged w cfg k (rowsOf (ps.flatMap Prod.fst))) := by
  induction ps generalizing k with
  | nil => simp [Passes, Accepted, rowsOf, tagged]
  | cons p ps ih =>
    have happend : ∀ l l' : List (String × Row V), Accepted created (l ++ l') ↔
        Accepted created l ∧ Accepted created l' := fun l l' => List.forall_mem_append
    rw [rowsOf_flatMap_cons, tagged_append, happend, ← ih, ← accepted_iff, Passes,
      transform_of_plain hplain]

variable {file : FileView V} {s : State V}

lemma passes_of_success (h : (execute w cfg file s).1.status = .success) :
    (stream w.ops file cfg).fail = none ∧
      Passes w cfg s.created s.clockReads (stream w.ops file cfg).batches.zipIdx := by
  obtain ⟨P, -, -, hok⟩ := (committedLog w).execute cfg file s
  refine ⟨(hok h).2.1, ?_⟩
  rcases hloop : (Prog.forEach (turn w cfg) (stream w.ops file cfg).batches.zipIdx (zeroed s)).1
    with e | u
  · rw [(status_of_loop_error hloop).1, success_iff] at h
    cases h
  · exact ((calls_loop ownErrors_true).of_returned hloop).1

lemma success_of_passes (hdb : ∀ n, w.db n = .ok 1) (hfail : (stream w.ops file cfg).fail = none)
    (h : Passes w cfg s.created s.clockReads (stream w.ops file cfg).batches.zipIdx) :
    (execute w cfg file s).1.status = .success := by
  have hans : ∀ n, (database w).raised n = none := fun n => by simp [database, hdb]
  have hcalls : DbCalls w (fun _ => True) _ (zeroed s) (callPlan w cfg file s) _ _ :=
    calls_loop ownErrors_true
  obtain ⟨⟨⟩, hok, -⟩ := hcalls.returns (fun i _ => hans _) h
  rw [(status_of_loop_ok hok).1, hfail]
  rfl

end run

/-! ### One row a batch, and all rows in one batch -/

lemma batchLoop_one {α : Type*} (xs : List α) : batchLoop 1 [] xs = (xs.map fun x => [x], []) := by
  induction xs with
  | nil => rfl
  | cons x xs ih => simp [batchLoop, ih]

lemma batchLoop_of_lt {α : Type*} {n : ℤ} (batch xs : List α)
    (h : (batch.length + xs.length : ℤ) < n) : batchLoop n batch xs = ([], batch ++ xs) := by
  induction xs generalizing batch with
  | nil => simp [batchLoop]
  | cons x xs ih =>
    rw [List.length_cons] at h
    have hlen : ((batch ++ [x]).length : ℤ) = batch.length + 1 := by simp
    unfold batchLoop
    dsimp only
    rw [if_neg (by push_cast at h; omega), ih _ (by push_cast at h; omega), List.append_assoc,
      List.singleton_append]

lemma batches_one {α : Type*} {p : Parsed α} : batches 1 p = p.items.map fun x => [x] := by
  simp [batches, batchLoop_one]

lemma batches_all {α : Type*} {p : Parsed α} (hfail : p.fail = none) (hne : p.items ≠ []) :
    batches (p.items.length + 1) p = [p.items] := by
  have hloop : batchLoop (p.items.length + 1) [] p.items = ([], p.items) :=
    batchLoop_of_lt [] p.items (by simp)
  simp [batches, hloop, hfail, hne]

/-! ### The condition -/

section condition

variable {w : World V} {cfg : TaskConfig} {default : Defaults V} {file : FileView V} {s : State V}
  {answers : ℕ → DbAnswer} {b : ℤ}

lemma tagged_plain (w : World V) (cfg : TaskConfig) (answers : ℕ → DbAnswer) (b : ℤ) (k : ℕ)
    (rows : List (Row V)) :
    tagged (w.answering answers) (plain cfg b) k rows = tagged w cfg k rows := by
  induction rows generalizing k with
  | nil => rfl
  | cons row rows ih =>
    rw [tagged, tagged, ih]
    rfl

lemma stream_plain (w : World V) (cfg : TaskConfig) (file : FileView V) (b : ℤ) :
    stream w.ops file (plain cfg b) =
      ⟨batches b (records w.ops file cfg "item"), (records w.ops file cfg "item").fail⟩ := rfl

lemma tagged_batches (answers : ℕ → DbAnswer) (b : ℤ) (s : State V)
    (hfail : (records w.ops file cfg "item").fail = none) :
    tagged (w.answering answers) (plain cfg b) s.clockReads
      (rowsOf ((stream w.ops file (plain cfg b)).batches.zipIdx.flatMap Prod.fst)) =
      routedRows w cfg file s := by
  have hflat : (stream w.ops file (plain cfg b)).batches.zipIdx.flatMap Prod.fst =
      (records w.ops file cfg "item").items := by
    rw [List.flatMap_def, List.zipIdx_map_fst, stream_plain]
    exact batches_flatten b _ hfail
  rw [hflat, tagged_plain, routedRows]

lemma loadable_of_success
    (h : (execute (w.answering answers) (plain cfg b) file s).1.status = .success) :
    Loadable w cfg file s := by
  obtain ⟨hstream, hpass⟩ := passes_of_success h
  have hfail : (records w.ops file cfg "item").fail = none := hstream
  refine ⟨hfail, ?_⟩
  rw [← tagged_batches answers b s hfail]
  exact (passes_iff rfl _ _ _).1 hpass

lemma success_of_loadable (h : Loadable w cfg file s) (b : ℤ) :
    (execute (w.answering fun _ => .ok 1) (plain cfg b) file s).1.status = .success := by
  have haccepted := h.2
  rw [← tagged_batches (fun _ => .ok 1) b s h.1] at haccepted
  exact success_of_passes (fun _ => rfl) h.1 ((passes_iff rfl _ _ _).2 haccepted)

/-- What a run that succeeds stores in a table, when no batch has a clash. -/
lemma under_storedPairs_run
    (h : (execute (w.answering answers) (plain cfg b) file s).1.status = .success)
    (hagree : BatchesAgree (w.answering answers) (plain cfg b) default s.clockReads
      (stream w.ops file (plain cfg b)).batches.zipIdx) (table : String) :
    Dict.under table
        (storedPairs default (attempt (w.answering answers) (plain cfg b) file s)) =
      (Dict.under table (routedRows w cfg file s)).map (storeAlone (default table)) := by
  have hattempt := ((attempt_execute (w.answering answers) (plain cfg b) file s).2 h).1
  rw [hattempt, ← tagged_batches answers b s (loadable_of_success h).1]
  exact under_storedPairs_emission rfl table _ _ hagree

lemma tablesAfter_one (conflict : String → StoredRow V → StoredRow V → Bool)
    (db : Contents (StoredRow V))
    (h : (execute (w.answering answers) (plain cfg 1) file s).1.status = .success)
    (table : String) :
    tablesAfter default conflict db (attempt (w.answering answers) (plain cfg 1) file s) table =
      insertAll (conflict table) (db table)
        ((Dict.under table (routedRows w cfg file s)).map (storeAlone (default table))) := by
  rw [tablesAfter_apply, under_storedPairs_run h]
  refine batchesAgree_of_single _ _ fun p hp => ?_
  have hmem := List.fst_mem_of_mem_zipIdx hp
  rw [stream_plain, batches_one] at hmem
  obtain ⟨item, -, hitem⟩ := List.mem_map.1 hmem
  exact ⟨item, hitem.symm⟩

lemma tablesAfter_all (conflict : String → StoredRow V → StoredRow V → Bool)
    (db : Contents (StoredRow V)) (hne : (records w.ops file cfg "item").items ≠ [])
    (h : (execute (w.answering answers)
      (plain cfg ((records w.ops file cfg "item").items.length + 1)) file s).1.status = .success)
    (table : String) :
    tablesAfter default conflict db (attempt (w.answering answers)
        (plain cfg ((records w.ops file cfg "item").items.length + 1)) file s) table =
      insertAll (conflict table) (db table)
        (storedRows default ⟨table, Dict.under table (routedRows w cfg file s)⟩) := by
  have hfail := (loadable_of_success h).1
  have hattempt := ((attempt_execute (w.answering answers) _ file s).2 h).1
  have hbatches : (stream w.ops file
      (plain cfg ((records w.ops file cfg "item").items.length + 1))).batches =
        [(records w.ops file cfg "item").items] := by
    rw [stream_plain]
    exact batches_all hfail hne
  have hstream : (stream (w.answering answers).ops file
      (plain cfg ((records w.ops file cfg "item").items.length + 1))).batches.zipIdx =
        [((records w.ops file cfg "item").items, 0)] := by
    show (stream w.ops file _).batches.zipIdx = _
    rw [hbatches]
    rfl
  rw [tablesAfter_apply, hattempt, hstream, emission, transform_of_plain rfl]
  dsimp only
  rw [emission, List.append_nil, under_storedPairs_batch]
  rw [tagged_plain]
  rfl

/-- **When the batch size does not matter.** Whatever is in the tables and whatever their unique
keys are, two runs that succeed leave the same contents exactly if no column with a declared
default is given by one row of a table and left out by another (or no run succeeds at all). -/
theorem batchSizeFree_iff (default : Defaults V) (w : World V) (cfg : TaskConfig)
    (file : FileView V) (s : State V) : BatchSizeFree default w cfg file s ↔
      (Loadable w cfg file s → NoClash default (routedRows w cfg file s)) := by
  constructor
  · intro hfree hload table row row' c hrow hrow' hc hc'
    have hne : (records w.ops file cfg "item").items ≠ [] := by
      intro hnil
      rw [routedRows, hnil] at hrow
      cases hrow
    have hone := success_of_loadable hload 1
    have hall := success_of_loadable hload ((records w.ops file cfg "item").items.length + 1)
    -- without unique keys, into empty tables
    have hsame := congrFun (hfree (fun _ _ _ => false) (fun _ => []) 1 _ _ _ le_rfl (by omega)
      hone hall) table
    rw [tablesAfter_one _ _ hone, tablesAfter_all _ _ hne hall,
      insertAll_of_free fun _ _ => rfl, insertAll_of_free fun _ _ => rfl, List.nil_append,
      List.nil_append, storedRows_eq] at hsame
    have hstored := congrFun (List.map_inj_left.1 hsame row' (Dict.mem_under.2 hrow')) c
    have hunion : some c ∈ unionKeys (Dict.under table (routedRows w cfg file s)) :=
      mem_unionKeys (Dict.mem_under.2 hrow) hc
    rw [storeAlone_apply, if_neg hc', storeTuple_apply, if_pos hunion,
      getCell_of_not_mem hc'] at hstored
    exact hstored
  · intro hclash conflict db b₁ b₂ answers₁ answers₂ hb₁ hb₂ h₁ h₂
    have hload := loadable_of_success h₁
    have hagree : ∀ (answers : ℕ → DbAnswer) (b : ℤ),
        BatchesAgree (w.answering answers) (plain cfg b) default s.clockReads
          (stream w.ops file (plain cfg b)).batches.zipIdx := by
      intro answers b
      apply batchesAgree_of_noClash
      rw [tagged_batches answers b s hload.1]
      exact hclash hload
    funext table
    rw [tablesAfter_apply, tablesAfter_apply, under_storedPairs_run h₁ (hagree _ _),
      under_storedPairs_run h₂ (hagree _ _)]

end condition

/-- Two JSON rows, the second without the column `note`. -/
def sparseFile : FileView String where
  path := "/in/x.json"
  size := 60
  ext := ".json"
  json _ := ⟨[some (smallRow [("id", "1"), ("day", "2024-05-01"), ("note", "x")]),
    some (smallRow [("id", "2"), ("day", "2024-05-02")])], none⟩

/-- `note` is declared with a default. -/
def noteDefault : Defaults String := fun _ c => if c = "note" then some "new" else none

/-- With one row a batch the second row gets the default of `note`, with two it gets `NULL`. -/
theorem not_batchSizeFree_sparse :
    ¬ ∀ (default : Defaults String) (w : World String) (cfg : TaskConfig) (file : FileView String)
      (s : State String), BatchSizeFree default w cfg file s := by
  intro h
  have hsame := h noteDefault smallWorld smallTask sparseFile {} (fun _ _ _ => false) (fun _ => [])
    1 2 (fun _ => .ok 1) (fun _ => .ok 1) (by decide) (by decide) (by decide +kernel)
    (by decide +kernel)
  have hnotes := congrArg (fun db => (db "b_202405").map fun r => r "note") hsame
  revert hnotes
  decide +kernel

end Tdcs.Pipeline
