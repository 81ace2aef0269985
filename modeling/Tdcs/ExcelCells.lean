import Tdcs.Batches

/-!
When `_stream_excel` keeps every cell of a sheet.

A row is zipped against the header by position. A column without a header text goes by the name
`col_i`, in one namespace with the texts of the header.
-/

namespace Tdcs.Extractor

open Tdcs.Lib

variable {V : Type*}

/-- The key of column `i` under the header cell `c`. -/
def headerKey (ops : ValueOps V) (i : ℕ) (c : Option V) : String :=
  (c.map ops.str).getD ("col_" ++ toString i)

/-- The texts of the header cells that are not blank. -/
def headerNames (ops : ValueOps V) (header : List (Option V)) : List String :=
  header.filterMap fun c => c.map ops.str

/-- Every cell of `row` that is not empty is in `d`, under the key of its column. -/
def CellsKept (ops : ValueOps V) (header row : List (Option V)) (d : Row V) : Prop :=
  ∀ (i : ℕ) (v : V), row[i]? = some (some v) →
    ∃ key, (excelHeaders ops header)[i]? = some key ∧ d.get? key = some (some v)

/-- `_stream_excel` yields one dictionary for each data row, which keeps all its cells, and no two
columns share a key. -/
structure KeepsCells (ops : ValueOps V) (batchSize : ℤ) (header : List (Option V))
    (rows : List (List (Option V))) : Prop where
  cells : List.Forall₂ (CellsKept ops header) rows
    (streamExcel ops batchSize ⟨header :: rows, none⟩).flatten
  keys : (excelHeaders ops header).Nodup

/-- No row has a cell that is not empty beyond the header. -/
def WithinHeader (header : List (Option V)) (rows : List (List (Option V))) : Prop :=
  ∀ row ∈ rows, ∀ (i : ℕ) (v : V), row[i]? = some (some v) → i < header.length

/-- No blank header cell goes by a name that the header has. -/
def BlanksApart (ops : ValueOps V) (header : List (Option V)) : Prop :=
  ∀ i : ℕ, header[i]? = some none → "col_" ++ toString i ∉ headerNames ops header

/-! ### The keys of the columns -/

variable {ops : ValueOps V} {header : List (Option V)} {rows : List (List (Option V))}

lemma getElem?_excelHeaders (ops : ValueOps V) (header : List (Option V)) (i : ℕ) :
    (excelHeaders ops header)[i]? = header[i]?.map fun c => some (headerKey ops i c) := by
  simp [excelHeaders, headerKey]

lemma mem_headerNames {name : String} :
    name ∈ headerNames ops header ↔ ∃ (i : ℕ) (v : V), header[i]? = some (some v) ∧
      ops.str v = name := by
  simp only [headerNames, List.mem_filterMap, Option.map_eq_some_iff]
  constructor
  · rintro ⟨c, hc, v, rfl, rfl⟩
    obtain ⟨i, hi⟩ := List.mem_iff_getElem?.mp hc
    exact ⟨i, v, hi, rfl⟩
  · rintro ⟨i, v, hi, rfl⟩
    exact ⟨some v, List.mem_of_getElem? hi, v, rfl, rfl⟩

lemma nodup_excelHeaders_iff : (excelHeaders ops header).Nodup ↔
    ∀ (i j : ℕ) (c c' : Option V), i < j → header[i]? = some c → header[j]? = some c' →
      headerKey ops i c ≠ headerKey ops j c' := by
  rw [List.nodup_iff_getElem?_ne_getElem?]
  constructor
  · intro h i j c c' hij hc hc' hkey
    have hj : j < header.length := (List.getElem?_eq_some_iff.mp hc').1
    refine h i j hij (by simpa [excelHeaders] using hj) ?_
    simp only [getElem?_excelHeaders, hc, hc', Option.map_some, hkey]
  · intro h i j hij hj
    have hj' : j < header.length := by simpa [excelHeaders] using hj
    have hi' : i < header.length := hij.trans hj'
    simp only [getElem?_excelHeaders, List.getElem?_eq_getElem hi', List.getElem?_eq_getElem hj',
      Option.map_some, ne_eq, Option.some.injEq]
    exact h i j _ _ hij (List.getElem?_eq_getElem hi') (List.getElem?_eq_getElem hj')

lemma nodup_headerNames_iff : (headerNames ops header).Nodup ↔
    ∀ (i j : ℕ) (v v' : V), i < j → header[i]? = some (some v) → header[j]? = some (some v') →
      ops.str v ≠ ops.str v' := by
  rw [headerNames, List.Nodup, List.pairwise_filterMap, List.pairwise_iff_getElem]
  constructor
  · intro h i j v v' hij hv hv'
    obtain ⟨hi, hv⟩ := List.getElem?_eq_some_iff.mp hv
    obtain ⟨hj, hv'⟩ := List.getElem?_eq_some_iff.mp hv'
    exact h i j hi hj hij _ (by rw [hv]; rfl) _ (by rw [hv']; rfl)
  · intro h i j hi hj hij b hb b' hb'
    obtain ⟨v, hv, rfl⟩ := Option.map_eq_some_iff.mp hb
    obtain ⟨v', hv', rfl⟩ := Option.map_eq_some_iff.mp hb'
    exact h i j v v' hij (List.getElem?_eq_some_iff.mpr ⟨hi, hv⟩)
      (List.getElem?_eq_some_iff.mpr ⟨hj, hv'⟩)

/-- **Distinct keys.** Two columns share a key where two header texts agree or where a blank one
gets a name that is taken; the names of two blank ones differ in their numbers. -/
theorem nodup_excelHeaders :
    (excelHeaders ops header).Nodup ↔
      (headerNames ops header).Nodup ∧ BlanksApart ops header := by
  rw [nodup_excelHeaders_iff, nodup_headerNames_iff]
  constructor
  · intro h
    refine ⟨fun i j v v' hij hv hv' => h i j _ _ hij hv hv', fun i hi hmem => ?_⟩
    obtain ⟨j, v, hv, hname⟩ := mem_headerNames.mp hmem
    rcases Nat.lt_trichotomy i j with hij | rfl | hij
    · exact h i j _ _ hij hi hv hname.symm
    · rw [hi] at hv
      cases hv
    · exact h j i _ _ hij hv hi hname
  · rintro ⟨hnames, hblanks⟩ i j c c' hij hc hc' hkey
    rcases c with _ | v <;> rcases c' with _ | v'
    · -- both blank
      have hdigits : Nat.toDigits 10 i = Nat.toDigits 10 j :=
        String.ofList_injective ((String.append_right_inj "col_").mp hkey)
      have hnum := congrArg (Nat.ofDigitChars 10 · 0) hdigits
      simp only [Nat.ofDigitChars_toDigits (show 1 < 10 by omega) le_rfl] at hnum
      exact hij.ne hnum
    · exact hblanks i hc (mem_headerNames.mpr ⟨j, v', hc', hkey.symm⟩)
    · exact hblanks j hc' (mem_headerNames.mpr ⟨i, v, hc, hkey⟩)
    · exact hnames i j v v' hij hc hc' hkey

/-! ### The cells of a row -/

lemma cellsKept_iff (hkeys : (excelHeaders ops header).Nodup) (row : List (Option V)) :
    CellsKept ops header row (Dict.ofPairs ((excelHeaders ops header).zip row)) ↔
      ∀ (i : ℕ) (v : V), row[i]? = some (some v) → i < header.length := by
  refine forall₃_congr fun i v hv => ?_
  constructor
  · rintro ⟨key, hkey, -⟩
    have hlt := (List.getElem?_eq_some_iff.mp hkey).1
    simpa [excelHeaders] using hlt
  · intro hi
    have hkey : (excelHeaders ops header)[i]? = some (some (headerKey ops i header[i])) := by
      rw [getElem?_excelHeaders, List.getElem?_eq_getElem hi, Option.map_some]
    exact ⟨_, hkey, Dict.get?_ofPairs_zip hkeys hkey hv⟩

lemma flatten_streamExcel (ops : ValueOps V) (n : ℤ) (header : List (Option V))
    (rows : List (List (Option V))) :
    (streamExcel ops n ⟨header :: rows, none⟩).flatten =
      rows.map fun row => Dict.ofPairs ((excelHeaders ops header).zip row) := by
  rw [streamExcel_eq, batches_flatten _ _ rfl]
  rfl

/-- **When a sheet keeps its cells.** -/
theorem keepsCells_iff (ops : ValueOps V) (batchSize : ℤ) (header : List (Option V))
    (rows : List (List (Option V))) :
    KeepsCells ops batchSize header rows ↔
      WithinHeader header rows ∧ (headerNames ops header).Nodup ∧ BlanksApart ops header := by
  rw [← nodup_excelHeaders]
  have hcells (hkeys : (excelHeaders ops header).Nodup) :
      List.Forall₂ (CellsKept ops header) rows
        (streamExcel ops batchSize ⟨header :: rows, none⟩).flatten ↔
          WithinHeader header rows := by
    rw [flatten_streamExcel, List.forall₂_map_right_iff, List.forall₂_same]
    exact forall₂_congr fun row _ => cellsKept_iff hkeys row
  constructor
  · rintro ⟨hkept, hkeys⟩
    exact ⟨(hcells hkeys).mp hkept, hkeys⟩
  · rintro ⟨hwithin, hkeys⟩
    exact ⟨(hcells hkeys).mpr hwithin, hkeys⟩

/-- The blank first column goes by the name of the second and its cell is overwritten. -/
theorem not_keepsCells_blankHeader :
    let ops : ValueOps String := ⟨fun s => s != "", id⟩
    let header := [none, some "col_0"]
    (header.filterMap id).Nodup ∧ ¬ KeepsCells ops 100 header [[some "1", some "2"]] := by
  refine ⟨by decide, fun h => ?_⟩
  exact absurd h.keys (by decide +kernel)

end Tdcs.Extractor
