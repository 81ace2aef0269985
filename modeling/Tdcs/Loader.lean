import Tdcs.PipelineWorld

/-!
`Loader`: rows as tuples under the union of their keys, sent in chunks.
-/

namespace Tdcs.Pipeline

open Tdcs.Lib Tdcs.Extractor

variable {V : Type*}

/-- `_CHUNK_SIZE`. -/
def chunkSize : ℕ := 1000

/-- `seen.setdefault(k, None)`. -/
def addKey (seen : List (Option String)) (key : Option String) : List (Option String) :=
  if key ∈ seen then seen else seen ++ [key]

/-- The columns of `_prepare_rows`: the keys of all rows, in the order they appear. -/
def unionKeys (rows : List (Row V)) : List (Option String) :=
  rows.foldl (fun seen row => row.keys.foldl addKey seen) []

/-- `_prepare_rows`. -/
def prepareRows (rows : List (Row V)) : List (Option String) × List (List (Option V)) :=
  let columns := unionKeys rows
  (columns, rows.map fun row => columns.map (getCell row))

/-- `data[i : i + size]` for `i` in `range(0, len(data), size)`. -/
def chunks {α : Type*} (size : ℕ) (data : List α) : List (List α) :=
  (List.range ((data.length + size - 1) / size)).map fun i => (data.drop (i * size)).take size

/-- The statements `load_batch` sends when nothing goes wrong. -/
def statements (table : String) (rows : List (Row V)) : List (Statement V) :=
  (chunks chunkSize (prepareRows rows).2).map fun chunk => ⟨table, (prepareRows rows).1, chunk⟩

lemma chunks_nil {α : Type*} {size : ℕ} (hsize : 0 < size) : chunks size ([] : List α) = [] := by
  have hdiv : (([] : List α).length + size - 1) / size = 0 :=
    Nat.div_eq_of_lt (by rw [List.length_nil]; omega)
  rw [chunks, hdiv]
  rfl

lemma statements_nil (table : String) : statements table ([] : List (Row V)) = [] := by
  rw [statements, prepareRows, List.map_nil, chunks_nil (by decide)]
  rfl

variable (w : World V)

/-- The loop of `_execute_batch`; returns the row counts' sum. -/
def executeChunks : List (Statement V) → Prog (State V) Exc ℕ
  | [] => Prog.ret 0
  | stmt :: stmts => Prog.andThen (executemany w stmt) fun n =>
    Prog.andThen (executeChunks stmts) fun m => Prog.ret (n + m)

/-- `load_batch`. The columns go through `_escape_column`, which `None` has no `replace`
for. -/
def loadBatch (table : String) (rows : List (Row V)) : Prog (State V) Exc ℕ :=
  if rows.isEmpty then Prog.ret 0
  else if none ∈ (prepareRows rows).1 then
    Prog.raise (.other "AttributeError" "'NoneType' object has no attribute 'replace'")
  else
    Prog.andThen (dbCall w) fun _ =>
    Prog.andThen (executeChunks w (statements table rows)) fun written =>
    Prog.andThen (commit w ⟨table, rows⟩) fun _ => Prog.ret written

/-! ### Columns and tuples -/

lemma mem_foldl_addKey {keys seen : List (Option String)} {c : Option String} :
    c ∈ keys.foldl addKey seen ↔ c ∈ seen ∨ c ∈ keys := by
  induction keys generalizing seen with
  | nil => simp
  | cons k keys ih =>
    rw [List.foldl_cons, ih, addKey]
    split_ifs with h
    · constructor
      · rintro (hs | hk)
        · exact Or.inl hs
        · exact Or.inr (List.mem_cons_of_mem _ hk)
      · rintro (hs | hk)
        · exact Or.inl hs
        · rcases List.mem_cons.mp hk with rfl | hk
          · exact Or.inl h
          · exact Or.inr hk
    · rw [List.mem_append, List.mem_singleton, List.mem_cons, or_assoc]

lemma nodup_foldl_addKey (keys : List (Option String)) {seen : List (Option String)}
    (h : seen.Nodup) :
    (keys.foldl addKey seen).Nodup := by
  induction keys generalizing seen with
  | nil => exact h
  | cons k keys ih =>
    rw [List.foldl_cons, addKey]
    split_ifs with hk
    · exact ih h
    · exact ih (List.nodup_append'.mpr ⟨h, List.nodup_singleton k, by simpa using hk⟩)

lemma foldl_unionKeys (rows : List (Row V)) (seen : List (Option String)) (h : seen.Nodup) :
    (rows.foldl (fun seen row => row.keys.foldl addKey seen) seen).Nodup ∧
      ∀ c, c ∈ rows.foldl (fun seen row => row.keys.foldl addKey seen) seen ↔
        c ∈ seen ∨ ∃ row ∈ rows, c ∈ row.keys := by
  induction rows generalizing seen with
  | nil => simp [h]
  | cons row rows ih =>
    obtain ⟨hn, hm⟩ := ih _ (nodup_foldl_addKey row.keys h)
    refine ⟨hn, fun c => ?_⟩
    rw [List.foldl_cons, hm, mem_foldl_addKey]
    simp [or_assoc]

lemma nodup_unionKeys (rows : List (Row V)) : (unionKeys rows).Nodup :=
  (foldl_unionKeys rows [] List.nodup_nil).1

lemma mem_unionKeys_iff {rows : List (Row V)} {c : Option String} :
    c ∈ unionKeys rows ↔ ∃ row ∈ rows, c ∈ row.keys := by
  rw [unionKeys, (foldl_unionKeys rows [] List.nodup_nil).2]
  simp

lemma mem_unionKeys {rows : List (Row V)} {row : Row V} (h : row ∈ rows) {c : Option String}
    (hc : c ∈ row.keys) : c ∈ unionKeys rows :=
  mem_unionKeys_iff.2 ⟨row, h, hc⟩

/-- The tuple, under the columns of its statement, says what the row says: every key of the
row is a column, the value of each of its keys stands at the position of that column, and
`None` at the other columns. -/
structure Encodes (columns : List (Option String)) (tuple : List (Option V)) (row : Row V) :
    Prop where
  nodup : columns.Nodup
  length : tuple.length = columns.length
  keys : ∀ c ∈ row.keys, c ∈ columns
  value : ∀ (i : ℕ) c v, columns[i]? = some c → row.get? c = some v → tuple[i]? = some v
  absent : ∀ (i : ℕ) c, columns[i]? = some c → c ∉ row.keys → tuple[i]? = some none

lemma getCell_of_not_mem {row : Row V} {c : Option String} (h : c ∉ row.keys) :
    getCell row c = none := by
  rcases hg : row.get? c with _ | v
  · simp [getCell, hg]
  · have hmem := Dict.get?_eq_some_iff.mp hg
    exact absurd (List.mem_map.mpr ⟨_, hmem, rfl⟩) h

lemma encodes_map {columns : List (Option String)} {row : Row V} (hn : columns.Nodup)
    (hk : ∀ c ∈ row.keys, c ∈ columns) : Encodes columns (columns.map (getCell row)) row where
  nodup := hn
  length := by simp
  keys := hk
  value i c v h hv := by simp [h, getCell, hv]
  absent i c h hc := by simp [h, getCell_of_not_mem hc]

/-- The pairs of columns and tuple that a load of the rows sends. -/
def loadTuples (rows : List (Row V)) : List (List (Option String) × List (Option V)) :=
  (prepareRows rows).2.map fun tuple => ((prepareRows rows).1, tuple)

lemma encodes_loadTuples (rows : List (Row V)) :
    List.Forall₂ (fun (p : List (Option String) × List (Option V)) row => Encodes p.1 p.2 row)
      (loadTuples rows) rows := by
  have h : ∀ rows' : List (Row V), (∀ row ∈ rows', row ∈ rows) →
      List.Forall₂ (fun (p : List (Option String) × List (Option V)) row => Encodes p.1 p.2 row)
        ((rows'.map fun row => (unionKeys rows).map (getCell row)).map
          fun tuple => (unionKeys rows, tuple)) rows' := by
    intro rows' hsub
    induction rows' with
    | nil => exact List.Forall₂.nil
    | cons row rows' ih =>
      have hrow : row ∈ rows := hsub row List.mem_cons_self
      refine List.Forall₂.cons ?_ (ih fun r hr => hsub r (List.mem_cons_of_mem _ hr))
      exact encodes_map (nodup_unionKeys rows) fun c hc => mem_unionKeys hrow hc
  exact h rows fun _ hrow => hrow

/-! ### Chunks -/

lemma flatten_take_chunks {α : Type*} (size : ℕ) (data : List α) (k : ℕ) :
    ((List.range k).map fun i => (data.drop (i * size)).take size).flatten =
      data.take (k * size) := by
  induction k with
  | zero => simp
  | succ k ih =>
    rw [List.range_succ, List.map_append, List.flatten_append, ih, Nat.succ_mul, List.take_add]
    simp

/-- **Chunking loses nothing.** -/
theorem chunks_flatten {α : Type*} {size : ℕ} (hsize : 0 < size) (data : List α) :
    (chunks size data).flatten = data := by
  rw [chunks, flatten_take_chunks, List.take_of_length_le]
  have hdiv := Nat.div_add_mod (data.length + size - 1) size
  have hmod := Nat.mod_lt (data.length + size - 1) hsize
  have hcomm := Nat.mul_comm size ((data.length + size - 1) / size)
  omega

/-- The tuples of the statements, with their tables and columns. -/
def tuplesSent (sent : List (Statement V)) :
    List (String × List (Option String) × List (Option V)) :=
  sent.flatMap fun stmt => stmt.chunk.map fun tuple => (stmt.table, stmt.columns, tuple)

lemma tuplesSent_append (sent sent' : List (Statement V)) :
    tuplesSent (sent ++ sent') = tuplesSent sent ++ tuplesSent sent' :=
  List.flatMap_append

lemma tuplesSent_flatMap {α : Type*} (f : α → List (Statement V)) (l : List α) :
    tuplesSent (l.flatMap f) = l.flatMap fun a => tuplesSent (f a) :=
  List.flatMap_assoc

lemma tuplesSent_statements (table : String) (rows : List (Row V)) :
    tuplesSent (statements table rows) = (loadTuples rows).map fun p => (table, p) := by
  have hflat := chunks_flatten (by decide : 0 < chunkSize) (prepareRows rows).2
  calc tuplesSent (statements table rows)
      = ((chunks chunkSize (prepareRows rows).2).flatten).map
          fun tuple => (table, (prepareRows rows).1, tuple) := by
        rw [tuplesSent, statements, List.flatMap_map, List.map_flatten, List.flatMap_def]
    _ = (loadTuples rows).map fun p => (table, p) := by
        rw [hflat, loadTuples, List.map_map]
        rfl

end Tdcs.Pipeline
